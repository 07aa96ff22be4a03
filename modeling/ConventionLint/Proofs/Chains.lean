import ConventionLint.Proofs.Nodes

/-! Constructions as they stand in the tree: a chain of method calls and what it starts from, and the
options that a construction is given. -/
namespace ConventionLint

open Source

namespace Source.Node

variable {v r c t : Node}

/-- A chain of method calls, parentheses, casts and non-null marks around what it starts from. -/
inductive Begins (r : Node) : Node → Prop where
  | here : Begins r r
  | call {v t : Node} : v.receiver? = some t → Begins r t → Begins r v
  | wrap {v c : Node} : v.kind? = some .wrapper → v.first? = some c → Begins r c → Begins r v

theorem kind?_of_receiver? (h : v.receiver? = some t) : v.kind? = some .callExpression := by
  unfold receiver? at h
  split at h
  · assumption
  · cases h

theorem receiver?_of_ne (h : v.kind? ≠ some .callExpression) : v.receiver? = none := by
  rw [receiver?, if_neg h]

/-- The root of a chain is that of what the last method is called on. -/
theorem chainRoot_eq (v : Node) :
    v.chainRoot = match v.unwrap.receiver? with
      | some t => t.chainRoot
      | none => v.unwrap := by
  have hle := size_unwrap_le v
  rw [chainRoot, chainRootUpTo_congr hle (Nat.le_succ_of_le hle), chainRootUpTo_succ]
  cases ht : v.unwrap.receiver? with
  | none => rfl
  | some t =>
    have hlt := size_receiver?_lt ht
    have ht := size_unwrap_le t
    exact chainRootUpTo_congr (by omega) ht

theorem chainRoot_of_unwrap (h : v.unwrap = c.unwrap) : v.chainRoot = c.chainRoot := by
  rw [chainRoot_eq, chainRoot_eq c, h]

theorem unwrap_of_first? (hv : v.kind? = some .wrapper) (hc : v.first? = some c) :
    v.unwrap = c.unwrap := by
  rw [unwrap_of_wrapper hv, hc]
  rfl

theorem Begins.chainRoot_eq (hr : r.kind? = some .newExpression) (h : r.Begins v) :
    v.chainRoot = r := by
  induction h with
  | here =>
    have hu : r.unwrap = r := unwrap_of_ne (by simp [hr])
    have hcall : r.receiver? = none := receiver?_of_ne (by simp [hr])
    rw [Node.chainRoot_eq, hu, hcall]
  | @call v t ht _ ih =>
    have hu : v.unwrap = v := unwrap_of_ne (by simp [kind?_of_receiver? ht])
    rw [Node.chainRoot_eq, hu, ht]
    exact ih
  | wrap hv hc _ ih => rw [chainRoot_of_unwrap (unwrap_of_first? hv hc), ih]

theorem begins_chainRoot (hr : v.chainRoot.kind? = some .newExpression) : v.chainRoot.Begins v := by
  induction hs : v.size using Nat.strongRecOn generalizing v with
  | ind k ih =>
    subst hs
    by_cases hv : v.kind? = some .wrapper
    · cases hc : v.first? with
      | none =>
        have hu : v.unwrap = v := by rw [unwrap_of_wrapper hv, hc]; rfl
        have hcall : v.receiver? = none := receiver?_of_ne (by simp [hv])
        rw [chainRoot_eq, hu, hcall, hv] at hr
        cases hr
      | some c =>
        have he := chainRoot_of_unwrap (unwrap_of_first? hv hc)
        rw [he] at hr ⊢
        exact .wrap hv hc (ih c.size (size_lt_of_mem (mem_of_first? hc)) hr rfl)
    · have hu := unwrap_of_ne hv
      cases ht : v.receiver? with
      | none =>
        have he : v.chainRoot = v := by rw [chainRoot_eq, hu, ht]
        rw [he]
        exact .here
      | some t =>
        have he : v.chainRoot = t.chainRoot := by rw [chainRoot_eq, hu, ht]
        rw [he] at hr ⊢
        exact .call ht (ih t.size (size_receiver?_lt ht) hr rfl)

/-! A walk over all nodes meets the root of every chain. -/

theorem isNamed_of_kind? {k : Kind} (h : v.kind? = some k) (hk : ∀ text, k ≠ .token text) :
    v.isNamed = true := by
  unfold isNamed
  rw [h]
  cases k <;> first | rfl | exact (hk _ rfl).elim

theorem Begins.isNamed (hr : r.kind? = some .newExpression) (h : r.Begins v) : v.isNamed = true := by
  cases h with
  | here => exact isNamed_of_kind? hr (by simp)
  | call ht _ => exact isNamed_of_kind? (kind?_of_receiver? ht) (by simp)
  | wrap hv _ _ => exact isNamed_of_kind? hv (by simp)

theorem mem_preorder_self (v : Node) : v ∈ v.preorder := by
  rw [preorder_eq]
  exact List.mem_cons_self ..

theorem mem_preorder_of_child (hc : c ∈ v.children) (hn : c.isNamed = true) (h : r ∈ c.preorder) :
    r ∈ v.preorder := by
  rw [preorder_eq]
  refine List.mem_cons_of_mem _ (List.mem_flatMap.mpr ⟨c, ?_, h⟩)
  exact List.mem_filter.mpr ⟨hc, hn⟩

theorem exists_member_of_receiver? (h : v.receiver? = some t) :
    ∃ c ∈ v.children, c.kind? = some .memberExpression ∧ t ∈ c.children := by
  rw [receiver?, if_pos (kind?_of_receiver? h)] at h
  obtain ⟨c, hc, ht⟩ := Option.bind_eq_some_iff.mp h
  obtain ⟨hc, hk⟩ := Option.filter_eq_some_iff.mp hc
  exact ⟨c, mem_of_child? hc, by simpa using hk, mem_of_child? ht⟩

theorem Begins.mem_preorder (hr : r.kind? = some .newExpression) (h : r.Begins v) :
    r ∈ v.preorder := by
  induction h with
  | here => exact mem_preorder_self r
  | @call v t ht hchain ih =>
    obtain ⟨c, hc, hk, ht⟩ := exists_member_of_receiver? ht
    exact mem_preorder_of_child hc (isNamed_of_kind? hk (by simp))
      (mem_preorder_of_child ht (hchain.isNamed hr) ih)
  | wrap _ hc hchain ih => exact mem_preorder_of_child (mem_of_first? hc) (hchain.isNamed hr) ih

end Source.Node

/-! The options of a construction. -/

theorem lookup_cons_eq (name : String) (o : String × Option String)
    (options : List (String × Option String)) :
    (o :: options).lookup name = if name = o.1 then some o.2 else options.lookup name := by
  rw [List.lookup_cons]
  by_cases h : name = o.1
  · rw [if_pos h, beq_iff_eq.mpr h]
  · rw [if_neg h, beq_eq_false_iff_ne.mpr h]

theorem lookup_setOption (key name : String) (value : Option String)
    (options : List (String × Option String)) :
    (setOption key value options).lookup name =
      if name = key then some value else options.lookup name := by
  induction options with
  | nil =>
    rw [setOption, lookup_cons_eq]
  | cons o options ih =>
    rw [setOption]
    split
    · rename_i hkey
      rw [lookup_cons_eq, lookup_cons_eq, hkey]
      split <;> rfl
    · rename_i hkey
      rw [lookup_cons_eq, lookup_cons_eq, ih]
      by_cases hname : name = o.1
      · have hne : name ≠ key := fun h => hkey (hname.symm.trans h)
        rw [if_pos hname, if_pos hname, if_neg hne]
      · rw [if_neg hname, if_neg hname]

namespace Module

variable {m : Module} {o n p : Node} {name : String}

/-- The value of a property, if it is a plain string. -/
def valueOf (m : Module) (p : Node) : Option String := (p.child? .value).bind m.plainString

/-- Whether a property is written for a name. -/
def isKeyed (m : Module) (name : String) (p : Node) : Bool :=
  p.kind? = some .pair &&
    (p.child? .key).any fun k => k.kind? = some .propertyName && m.textOf k = name

/-- What one property adds to the options that are known before it. -/
def addOption (m : Module) (options : List (String × Option String)) (p : Node) :
    List (String × Option String) :=
  if p.kind? = some .pair then
    match p.child? .key with
    | some k =>
      if k.kind? = some .propertyName then setOption (m.textOf k) (m.valueOf p) options else options
    | none => options
  else options

theorem lookup_addOption (options : List (String × Option String)) (p : Node) :
    (m.addOption options p).lookup name =
      if m.isKeyed name p = true then some (m.valueOf p) else options.lookup name := by
  unfold addOption isKeyed
  split
  · rename_i hp
    cases hk : p.child? .key with
    | none => simp
    | some k =>
      dsimp only
      split
      · rename_i hname
        rw [lookup_setOption]
        simp [hp, hname, eq_comm]
      · rename_i hname
        simp [hname]
  · rename_i hp
    simp [hp]

/-- The last property of a name counts. -/
theorem lookup_optionsOf (m : Module) (o : Node) (name : String) :
    (m.optionsOf o).lookup name
      = (o.namedChildren.filter (m.isKeyed name)).getLast?.map m.valueOf := by
  have hfold : ∀ (ps : List Node) (options : List (String × Option String)),
      (ps.foldl m.addOption options).lookup name =
        ((ps.filter (m.isKeyed name)).getLast?.map m.valueOf).or (options.lookup name) := by
    intro ps
    induction ps with
    | nil => simp
    | cons p ps ih =>
      intro options
      rw [List.foldl_cons, ih, lookup_addOption]
      cases hp : m.isKeyed name p with
      | false => simp [hp]
      | true =>
        rw [List.filter_cons_of_pos hp, List.getLast?_cons]
        cases (ps.filter (m.isKeyed name)).getLast? <;> simp
  have h := hfold o.namedChildren []
  rw [List.lookup_nil, Option.or_none] at h
  exact h

/-- A construction of a class, by its name. -/
structure Constructs (m : Module) (name : String) (n : Node) : Prop where
  kind : n.kind? = some .newExpression
  constructor : ∃ c, n.child? .constructor = some c ∧ m.textOf c = name

/-- The property that an option of a construction is given by: the last one written for its name in an
object literal that is the first argument. -/
def Gives (m : Module) (n : Node) (name : String) (p : Node) : Prop :=
  ∃ a f, n.child? .arguments = some a ∧ a.first? = some f ∧ f.unwrap.kind? = some .object ∧
    (f.unwrap.namedChildren.filter (m.isKeyed name)).getLast? = some p

/-- The default export is a chain that starts from a construction of a class. -/
def ExportsChain (m : Module) (name : String) : Prop :=
  ∃ e v r, m.defaultStatement = some e ∧ e.child? .value = some v ∧ r.Begins v ∧ m.Constructs name r

theorem constructor_constructionOf (hname : name ≠ "") : (m.constructionOf n).constructor = name ↔
    ∃ c, n.child? .constructor = some c ∧ m.textOf c = name := by
  change ((n.child? .constructor).map m.textOf).getD "" = name ↔ _
  cases n.child? .constructor with
  | none => simpa using hname.symm
  | some c => simp

/-- The property that gives an option, looked for in the tree. -/
def given? (m : Module) (n : Node) (name : String) : Option Node :=
  (n.child? .arguments).bind fun a => a.first?.bind fun f =>
    if f.unwrap.kind? = some .object then (f.unwrap.namedChildren.filter (m.isKeyed name)).getLast?
    else none

theorem given?_eq_some_iff : m.given? n name = some p ↔ m.Gives n name p := by
  constructor
  · intro h
    obtain ⟨a, ha, h⟩ := Option.bind_eq_some_iff.mp h
    obtain ⟨f, hf, h⟩ := Option.bind_eq_some_iff.mp h
    split at h
    · rename_i ho
      exact ⟨a, f, ha, hf, ho, h⟩
    · cases h
  · rintro ⟨a, f, ha, hf, ho, hp⟩
    rw [given?, ha, Option.bind_some, hf, Option.bind_some, if_pos ho, hp]

theorem option_constructionOf (m : Module) (n : Node) (name : String) :
    ((m.constructionOf n).options.bind fun options => options.lookup name)
      = (m.given? n name).map m.valueOf := by
  change (((n.child? .arguments).bind fun a => a.first?.bind fun f =>
    if f.unwrap.kind? = some .object then some (m.optionsOf f.unwrap) else none).bind _) = _
  unfold given?
  cases n.child? .arguments with
  | none => rfl
  | some a =>
    rw [Option.bind_some, Option.bind_some]
    cases a.first? with
    | none => rfl
    | some f =>
      rw [Option.bind_some, Option.bind_some]
      split
      · exact lookup_optionsOf m f.unwrap name
      · rfl

theorem defaultConstruction_eq_some_iff {c : Construction} : m.defaultConstruction = some c ↔
    ∃ e v r, m.defaultStatement = some e ∧ e.child? .value = some v ∧
      (r.kind? = some .newExpression ∧ r.Begins v) ∧ m.constructionOf r = c := by
  unfold defaultConstruction
  constructor
  · intro h
    obtain ⟨e, he, h⟩ := Option.bind_eq_some_iff.mp h
    obtain ⟨v, hv, h⟩ := Option.bind_eq_some_iff.mp h
    split at h
    · rename_i hr
      exact ⟨e, v, v.chainRoot, he, hv, ⟨hr, Node.begins_chainRoot hr⟩, Option.some.inj h⟩
    · cases h
  · rintro ⟨e, v, r, he, hv, ⟨hr, hbegins⟩, rfl⟩
    rw [he, Option.bind_some, hv, Option.bind_some, hbegins.chainRoot_eq hr, if_pos hr]

theorem exportsChain_iff (hname : name ≠ "") :
    (m.defaultConstruction.any fun c => c.constructor = name) = true ↔ m.ExportsChain name := by
  rw [Option.any_eq_true]
  constructor
  · rintro ⟨c, hc, hn⟩
    obtain ⟨e, v, r, he, hv, ⟨hr, hbegins⟩, rfl⟩ := defaultConstruction_eq_some_iff.mp hc
    have hclass := (constructor_constructionOf hname).mp (of_decide_eq_true hn)
    exact ⟨e, v, r, he, hv, hbegins, ⟨hr, hclass⟩⟩
  · rintro ⟨e, v, r, he, hv, hbegins, hr⟩
    refine ⟨m.constructionOf r, ?_, decide_eq_true ((constructor_constructionOf hname).mpr hr.constructor)⟩
    exact defaultConstruction_eq_some_iff.mpr ⟨e, v, r, he, hv, ⟨hr.kind, hbegins⟩, rfl⟩

theorem mem_constructionsOf (hname : name ≠ "") {c : Construction} : c ∈ m.constructionsOf name ↔
    ∃ n ∈ m.root.preorder, m.Constructs name n ∧ m.constructionOf n = c := by
  rw [constructionsOf, constructions, Node.walk_eq, List.mem_filter, List.mem_map]
  constructor
  · rintro ⟨⟨n, hn, rfl⟩, hc⟩
    obtain ⟨hn, hk⟩ := List.mem_filter.mp hn
    have hclass := (constructor_constructionOf hname).mp (of_decide_eq_true hc)
    exact ⟨n, hn, ⟨of_decide_eq_true hk, hclass⟩, rfl⟩
  · rintro ⟨n, hn, hc, rfl⟩
    refine ⟨⟨n, List.mem_filter.mpr ⟨hn, decide_eq_true hc.kind⟩, rfl⟩, ?_⟩
    exact decide_eq_true ((constructor_constructionOf hname).mpr hc.constructor)

/-- A walk over the module meets what the default export starts from. -/
theorem mem_preorder_of_begins {e v r : Node} (he : m.defaultStatement = some e)
    (hv : e.child? .value = some v) (hr : r.kind? = some .newExpression) (hbegins : r.Begins v) :
    r ∈ m.root.preorder := by
  have hexport : e ∈ m.exports := List.mem_of_find?_eq_some he
  obtain ⟨hroot, -⟩ := List.mem_filter.mp hexport
  obtain ⟨hroot, hnamed⟩ := List.mem_filter.mp hroot
  refine Node.mem_preorder_of_child hroot hnamed ?_
  exact Node.mem_preorder_of_child (Node.mem_of_child? hv) (hbegins.isNamed hr)
    (hbegins.mem_preorder hr)

theorem ExportsChain.constructionsOf_ne_nil (hname : name ≠ "") (h : m.ExportsChain name) :
    m.constructionsOf name ≠ [] := by
  obtain ⟨e, v, r, he, hv, hbegins, hr⟩ := h
  have hmem := mem_preorder_of_begins he hv hr.kind hbegins
  exact List.ne_nil_of_mem ((mem_constructionsOf hname).mpr ⟨r, hmem, hr, rfl⟩)

/-- The property that gives an option, if a node is a construction of a class. -/
def optionAt (m : Module) (name option : String) (n : Node) : Option Node :=
  if n.kind? = some .newExpression ∧ (m.constructionOf n).constructor = name then m.given? n option
  else none

theorem optionAt_eq_some_iff (hname : name ≠ "") {option : String} :
    m.optionAt name option n = some p ↔ m.Constructs name n ∧ m.Gives n option p := by
  unfold optionAt
  constructor
  · intro h
    split at h
    · rename_i hc
      exact ⟨⟨hc.1, (constructor_constructionOf hname).mp hc.2⟩, given?_eq_some_iff.mp h⟩
    · cases h
  · rintro ⟨hc, h⟩
    rw [if_pos ⟨hc.kind, (constructor_constructionOf hname).mpr hc.constructor⟩]
    exact given?_eq_some_iff.mpr h

theorem optionAt_eq_none_iff (hname : name ≠ "") {option : String} :
    m.optionAt name option n = none ↔ (m.Constructs name n → ∀ p, ¬ m.Gives n option p) := by
  rw [Option.eq_none_iff_forall_ne_some]
  constructor
  · intro h hc p hp
    exact h p ((optionAt_eq_some_iff hname).mpr ⟨hc, hp⟩)
  · intro h p hp
    obtain ⟨hc, hp⟩ := (optionAt_eq_some_iff hname).mp hp
    exact h hc p hp

/-- The first property for an option among the constructions of a class, in source order. -/
def firstOption? (m : Module) (name option : String) : Option Node :=
  m.root.preorder.findSome? (m.optionAt name option)

theorem firstOption?_eq_some_iff (hname : name ≠ "") {option : String} :
    m.firstOption? name option = some p ↔
      ∃ before n after, m.root.preorder = before ++ n :: after ∧
        (m.Constructs name n ∧ m.Gives n option p) ∧
        ∀ b ∈ before, m.Constructs name b → ∀ q, ¬ m.Gives b option q := by
  rw [firstOption?, List.findSome?_eq_some_iff]
  simp only [optionAt_eq_some_iff hname, optionAt_eq_none_iff hname]

theorem findSome?_filter {α β : Type} (f : α → Option β) (p : α → Bool) (l : List α) :
    (l.filter p).findSome? f = l.findSome? fun a => if p a then f a else none := by
  rw [← List.head?_filterMap, List.filterMap_filter, List.head?_filterMap]

/-- What the constructions of a class say of an option is the value of the first property for it. -/
theorem findSome?_constructionsOf (m : Module) (name option : String) :
    ((m.constructionsOf name).findSome? fun c => c.options.bind fun options => options.lookup option)
      = (m.firstOption? name option).map m.valueOf := by
  rw [constructionsOf, constructions, Node.walk_eq, findSome?_filter, List.findSome?_map,
    findSome?_filter, firstOption?, List.map_findSome?]
  congr 1
  funext n
  simp only [Function.comp_apply, decide_eq_true_eq, option_constructionOf, optionAt]
  split <;> split <;> simp_all

end Module

end ConventionLint
