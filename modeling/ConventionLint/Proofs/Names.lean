import ConventionLint.Module.Construction
import ConventionLint.Module.Import
import ConventionLint.Proofs.Grammar
import ConventionLint.Proofs.Line
import ConventionLint.Proofs.Nodes

/-! The names that a module declares, imports and sets options to stand on one line each. -/
namespace ConventionLint

open Source Text

theorem Source.Node.role_of_child? {n c : Node} {r : Role} (h : n.child? r = some c) :
    c.role = some r := by
  simpa using List.find?_some h

namespace Source.Node.Tidy

variable {text : List Char} {n : Node}

theorem of_child? {r : Role} {c : Node} (h : n.Tidy text) (hc : n.child? r = some c) :
    c.Tidy text :=
  h.of_mem (mem_of_child? hc)

theorem of_mem_namedChildren {c : Node} (h : n.Tidy text) (hc : c ∈ n.namedChildren) :
    c.Tidy text :=
  h.of_mem (List.mem_filter.mp hc).1

theorem unwrap (h : n.Tidy text) : n.unwrap.Tidy text := by
  induction n using induction_children with
  | h n ih =>
    rcases unwrap_cases n with hn | ⟨c, hc, hn⟩
    · rw [hn]
      exact h
    · rw [hn]
      exact ih c hc (h.of_mem hc)

theorem of_mem_walk {c : Node} (h : n.Tidy text) (hc : c ∈ n.walk) : c.Tidy text := by
  rw [walk_eq] at hc
  induction n using induction_children with
  | h n ih =>
    rw [preorder_eq, List.mem_cons, List.mem_flatMap] at hc
    rcases hc with rfl | ⟨p, hp, hc⟩
    · exact h
    · exact ih p (List.mem_filter.mp hp).1 (h.of_mem_namedChildren hp) hc

end Source.Node.Tidy

namespace Module

variable {m : Module} {n : Node}

/-- A module whose tree is tidy. -/
def IsTidy (m : Module) : Prop := m.root.Tidy m.text

theorem isTidy_of_parse {text path : String} (h : parse text path = .ok m) : m.IsTidy := by
  obtain ⟨-, d, hd⟩ := root_of_parse h
  exact tidy_of_parse hd

theorem isLine_textOf (h : n.span.OnLine m.text) : IsLine (m.textOf n) :=
  isLine_ofList.mpr h

theorem isLine_identifier (h : n.Tidy m.text) (hk : n.kind? = some .identifier) :
    IsLine (m.textOf n) :=
  isLine_textOf (h.own hk).1

/-! Exports. -/

/-- What a variable statement binds. -/
theorem isLine_of_mem_bindings_variables (h : n.Tidy m.text) (hk : n.kind? = some .variableStatement)
    {b : String × Node} (hb : b ∈ m.bindings n) : IsLine b.1 := by
  unfold bindings at hb
  rw [hk] at hb
  obtain ⟨d, hd, hb⟩ := List.mem_filterMap.mp hb
  have hdt := h.of_mem_namedChildren hd
  split at hb
  · obtain ⟨c, hc, hb⟩ := Option.bind_eq_some_iff.mp hb
    split at hb
    · rename_i hi
      cases hb
      exact isLine_identifier (hdt.of_child? hc) hi
    · cases hb
  · cases hb

/-- The name of a function. -/
theorem isLine_nameOf (h : n.Tidy m.text) (hk : n.kind? = some .functionDeclaration) {name : String}
    (hn : m.nameOf n = some name) : IsLine name := by
  obtain ⟨hn, -⟩ := Option.filter_eq_some_iff.mp hn
  obtain ⟨c, hc, rfl⟩ := Option.map_eq_some_iff.mp hn
  exact isLine_textOf (h.own hk c (Node.mem_of_child? hc) (Node.role_of_child? hc))

/-- Classes are the only things with a name that need not be one. -/
theorem isLine_of_mem_bindings (h : n.Tidy m.text) {b : String × Node} (hb : b ∈ m.bindings n)
    (hf : bindsFunction b.2 = true) : IsLine b.1 := by
  by_cases hv : n.kind? = some .variableStatement
  · exact isLine_of_mem_bindings_variables h hv hb
  · have hn : ∃ name, m.nameOf n = some name ∧ (name, n) = b := by
      unfold bindings at hb
      split at hb
      · simpa using hb
      · simpa using hb
      · rename_i hk
        exact absurd hk hv
      · cases hb
    obtain ⟨name, hn, rfl⟩ := hn
    unfold bindsFunction at hf
    split at hf
    · rename_i hk
      exact isLine_nameOf h hk hn
    · rename_i hk
      unfold bindings at hb
      dsimp only at hk
      rw [hk] at hb
      cases hb
    · cases hf

theorem tidy_of_mem_exports (h : m.IsTidy) {e : Node} (he : e ∈ m.exports) : e.Tidy m.text :=
  h.of_mem_namedChildren (List.mem_filter.mp he).1

theorem isLine_namedFunctions (h : m.IsTidy) {name : String} (hn : name ∈ m.namedFunctions) :
    IsLine name := by
  obtain ⟨b, hb, rfl⟩ := List.mem_map.mp hn
  obtain ⟨hb, hf⟩ := List.mem_filter.mp hb
  obtain ⟨e, he, hb⟩ := List.mem_flatMap.mp hb
  obtain ⟨he, -⟩ := List.mem_filter.mp he
  have hf : bindsFunction b.2 = true := (Bool.and_eq_true_iff.mp hf).1
  have het := tidy_of_mem_exports h he
  have hk : e.kind? = some .exportStatement := by simpa using (List.mem_filter.mp he).2
  rw [topBindings, if_pos hk] at hb
  cases hd : e.child? .declaration with
  | none =>
    rw [hd] at hb
    cases hb
  | some d =>
    rw [hd] at hb
    exact isLine_of_mem_bindings (het.of_child? hd) hb hf

theorem isLine_exportedVariables (h : m.IsTidy) {name : String} (hn : name ∈ m.exportedVariables) :
    IsLine name := by
  obtain ⟨e, he, hn⟩ := List.mem_flatMap.mp hn
  have het := tidy_of_mem_exports h (List.mem_filter.mp he).1
  split at hn
  · rename_i d hd
    split at hn
    · rename_i hk
      obtain ⟨b, hb, rfl⟩ := List.mem_map.mp hn
      exact isLine_of_mem_bindings_variables (het.of_child? hd) hk hb
    · cases hn
  · cases hn

/-! Imports. -/

/-- What is imported is known by a name. -/
theorem isLine_localName (h : n.Tidy m.text) (hk : n.kind? = some .importSpecifier) :
    IsLine (m.importedName n).localName := by
  obtain ⟨has, hname⟩ := h.own hk
  unfold ImportedName.localName importedName
  dsimp only
  cases hc : n.child? .asName with
  | some c =>
    obtain ⟨hline, hne⟩ := has c (Node.mem_of_child? hc) (Node.role_of_child? hc)
    have htext : m.textOf c ≠ "" := by
      intro ht
      apply hne
      simpa [textOf] using congrArg String.toList ht
    rw [Option.map_some, Option.filter_some, if_pos (by simpa using htext)]
    exact isLine_textOf hline
  | none =>
    have hall : ∀ c ∈ n.children, c.role = some .name → c.span.OnLine m.text := by
      rcases hname with ⟨c, hc', hrole⟩ | hall
      · exact absurd hrole (by simpa using List.find?_eq_none.mp hc c hc')
      · exact hall
    cases hn : n.child? .name with
    | none =>
      change IsLine ""
      decide
    | some c =>
      exact isLine_textOf (hall c (Node.mem_of_child? hn) (Node.role_of_child? hn))

/-- A name that is the last identifier among some nodes. -/
theorem isLine_lastIdentifier {l : List Node} (h : ∀ p ∈ l, p.Tidy m.text) {name : String}
    (hn : name ∈ (((l.filter fun n => n.kind? = some .identifier).getLast?.map m.textOf).filter
      (· ≠ "")).toList) : IsLine name := by
  obtain ⟨hn, -⟩ := Option.filter_eq_some_iff.mp (Option.mem_toList.mp hn)
  obtain ⟨p, hp, rfl⟩ := Option.map_eq_some_iff.mp hn
  obtain ⟨hp, hk⟩ := List.mem_filter.mp (List.mem_of_getLast? hp)
  exact isLine_identifier (h p hp) (by simpa using hk)

theorem isLine_boundNames (h : m.IsTidy) {i : Import} (hi : i ∈ m.imports) {name : String}
    (hn : name ∈ i.boundNames) : IsLine name := by
  obtain ⟨statement, hs, rfl⟩ := List.mem_map.mp hi
  have hst : statement.Tidy m.text := h.of_mem_namedChildren (List.mem_filter.mp hs).1
  have hparts : ∀ p ∈ clauseParts statement, p.Tidy m.text := by
    intro p hp
    obtain ⟨clause, hc, hp⟩ := List.mem_flatMap.mp hp
    exact (hst.of_mem_namedChildren (List.mem_filter.mp hc).1).of_mem_namedChildren hp
  unfold Import.boundNames importOf at hn
  simp only [List.mem_append] at hn
  rcases hn with (hn | hn) | hn
  · exact isLine_lastIdentifier hparts hn
  · obtain ⟨_, himported, rfl⟩ := List.mem_map.mp hn
    obtain ⟨specifier, hspec, rfl⟩ := List.mem_map.mp himported
    obtain ⟨hmem, hk⟩ := List.mem_filter.mp hspec
    obtain ⟨list, hl, hmem⟩ := List.mem_flatMap.mp hmem
    have ht := (hparts list (List.mem_filter.mp hl).1).of_mem_namedChildren hmem
    exact isLine_localName ht (by simpa using hk)
  · refine isLine_lastIdentifier (fun p hp => ?_) hn
    obtain ⟨part, hpart, hp⟩ := List.mem_flatMap.mp hp
    exact (hparts part (List.mem_filter.mp hpart).1).of_mem_namedChildren hp

/-! Options of constructions. -/

/-- The value of a string in a property. -/
theorem isLine_plainString (h : n.IsPlain m.text) {value : String}
    (hv : m.plainString n = some value) : IsLine value := by
  unfold plainString at hv
  split at hv
  · cases hv
    refine isLine_join fun s hs => ?_
    obtain ⟨c, hc, rfl⟩ := List.mem_map.mp hs
    obtain ⟨hc, hk⟩ := List.mem_filter.mp hc
    exact isLine_textOf (h c (List.mem_filter.mp hc).1 (by simpa using hk))
  · cases hv

/-- All values that are known stand on one line. -/
def Lined (options : List (String × Option String)) : Prop :=
  ∀ o ∈ options, ∀ value, o.2 = some value → IsLine value

theorem lined_setOption {options : List (String × Option String)} (h : Lined options) {key : String}
    {value : Option String} (hv : ∀ text, value = some text → IsLine text) :
    Lined (setOption key value options) := by
  induction options with
  | nil => simpa [setOption, Lined] using hv
  | cons o options ih =>
    obtain ⟨ho, hr⟩ := List.forall_mem_cons.mp h
    rw [setOption]
    split
    · exact List.forall_mem_cons.mpr ⟨hv, hr⟩
    · exact List.forall_mem_cons.mpr ⟨ho, ih hr⟩

theorem lined_optionsOf (h : n.Tidy m.text) : Lined (m.optionsOf n) := by
  have hall : ∀ p ∈ n.namedChildren, p.Tidy m.text := fun p => h.of_mem_namedChildren
  unfold optionsOf
  refine List.foldlRecOn n.namedChildren _ (motive := Lined) (by simp [Lined]) ?_
  intro options ho p hp
  split
  · rename_i hk
    split
    · split
      · refine lined_setOption ho fun value hv => ?_
        obtain ⟨c, hc, hv⟩ := Option.bind_eq_some_iff.mp hv
        have hstring : c.kind? = some .string := by
          unfold plainString at hv
          split at hv
          · assumption
          · cases hv
        exact isLine_plainString ((hall p hp).own hk c (Node.mem_of_child? hc) hstring) hv
      · exact ho
    · exact ho
  · exact ho

theorem lined_options (h : m.IsTidy) {c : Construction} (hc : c ∈ m.constructions)
    {options : List (String × Option String)} (ho : c.options = some options) : Lined options := by
  obtain ⟨n, hn, rfl⟩ := List.mem_map.mp hc
  have hnt : n.Tidy m.text := h.of_mem_walk (List.mem_filter.mp hn).1
  obtain ⟨a, ha, ho⟩ := Option.bind_eq_some_iff.mp ho
  obtain ⟨first, hf, ho⟩ := Option.bind_eq_some_iff.mp ho
  have hft : first.Tidy m.text :=
    (hnt.of_child? ha).of_mem_namedChildren (List.mem_of_mem_head? hf)
  split at ho
  · cases ho
    exact lined_optionsOf hft.unwrap
  · cases ho

end Module

end ConventionLint
