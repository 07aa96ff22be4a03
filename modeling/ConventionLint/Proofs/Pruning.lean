import Mathlib.Data.List.Basic
import ConventionLint.Proofs.Nodes

/-! Trees without their comments. Every other node stays, with its kind, its part and its place, and
is reached on the same ways from the root. -/
namespace ConventionLint.Source.Node

variable {n c : Node} {cs : List Node} {lead keep : Bool} {r : Role} {k : Kind}

def isComment (n : Node) : Bool := n.kind?.isNone

/-- Whether the first named node below a node is taken for what it holds. -/
def opens (n : Node) : Bool :=
  n.kind? = some .wrapper || n.role = some .type || n.role = some .returns ||
    n.role = some .arguments

mutual

/-- The tree without its comments. With `lead`, a comment stays if it is the first named node of one
that opens. -/
def prune (lead : Bool) : Node → Node
  | .comment s => .comment s
  | .mk k r s cs => .mk k r s (pruneAll lead (lead && opens (.mk k r s cs)) cs)

/-- With `keep`, a comment stays if it is the first named node of the list. -/
def pruneAll (lead keep : Bool) : List Node → List Node
  | [] => []
  | c :: cs =>
    let rest := pruneAll lead (keep && !c.isNamed) cs
    if c.isComment && !keep then rest else prune lead c :: rest

end

mutual

/-- Whether no node of a tree that opens has a comment as its first named node. -/
def isClear : Node → Bool
  | .comment _ => true
  | .mk k r s cs =>
    !(opens (.mk k r s cs) && (first? (.mk k r s cs)).any isComment) && areClear cs

def areClear : List Node → Bool
  | [] => true
  | c :: cs => isClear c && areClear cs

end

/-! A node keeps its kind, its part and its place. -/

@[simp] theorem kind?_prune : (n.prune lead).kind? = n.kind? := by
  cases n <;> rfl

@[simp] theorem role_prune : (n.prune lead).role = n.role := by
  cases n <;> rfl

@[simp] theorem span_prune : (n.prune lead).span = n.span := by
  cases n <;> rfl

@[simp] theorem isComment_prune : (n.prune lead).isComment = n.isComment := by
  rw [isComment, kind?_prune, isComment]

@[simp] theorem isNamed_prune : (n.prune lead).isNamed = n.isNamed := by
  rw [isNamed, kind?_prune, isNamed]

theorem isNamed_of_isComment (h : n.isComment = true) : n.isNamed = true := by
  cases n with
  | comment s => rfl
  | mk k r s cs => cases h

theorem children_prune (n : Node) :
    (n.prune lead).children = pruneAll lead (lead && n.opens) n.children := by
  cases n <;> rfl

/-! All that is not a comment stays, in its order. -/

theorem filter_pruneAll :
    (pruneAll lead keep cs).filter (!·.isComment) = (cs.filter (!·.isComment)).map (prune lead) := by
  induction cs generalizing keep with
  | nil => rfl
  | cons c cs ih =>
    rw [pruneAll]
    cases hc : c.isComment <;> cases keep <;> simp [hc, ih]

/-- The nodes below a node that are no comments. -/
def proper (n : Node) : List Node := n.children.filter (!·.isComment)

def properNamed (n : Node) : List Node := n.proper.filter isNamed

theorem proper_prune (n : Node) : (n.prune lead).proper = n.proper.map (prune lead) := by
  rw [proper, children_prune, filter_pruneAll]
  rfl

theorem properNamed_prune (n : Node) :
    (n.prune lead).properNamed = n.properNamed.map (prune lead) := by
  rw [properNamed, proper_prune, List.filter_map]
  congr 2
  funext c
  exact isNamed_prune

theorem properNamed_eq (n : Node) : n.properNamed = n.namedChildren.filter (!·.isComment) := by
  rw [properNamed, proper, namedChildren, List.filter_filter, List.filter_filter]
  congr 1
  funext c
  exact Bool.and_comm _ _

theorem mem_children_of_properNamed (h : c ∈ n.properNamed) : c ∈ n.children :=
  (List.mem_filter.mp (List.mem_filter.mp h).1).1

/-- A search that no comment meets goes over the other nodes only. -/
theorem find?_proper {p : Node → Bool} (hp : ∀ c : Node, c.isComment = true → p c = false) :
    n.children.find? p = n.proper.find? p := by
  rw [proper, List.find?_filter]
  congr 1
  funext c
  cases hc : c.isComment with
  | true => simp [hp c hc]
  | false => simp

theorem child?_prune (n : Node) (r : Role) :
    (n.prune lead).child? r = (n.child? r).map (prune lead) := by
  have hp : ∀ c : Node, c.isComment = true → decide (c.role = some r) = false := by
    intro c hc
    cases c with
    | comment s => rfl
    | mk k r s cs => cases hc
  rw [child?, child?, find?_proper hp, find?_proper hp, proper_prune, List.find?_map]
  congr 2
  funext c
  rw [Function.comp_apply, role_prune]

theorem hasToken_prune (n : Node) (t : String) : (n.prune lead).hasToken t = n.hasToken t := by
  have hp : ∀ c : Node, c.isComment = true → decide (c.kind? = some (.token t)) = false := by
    intro c hc
    cases c with
    | comment s => rfl
    | mk k r s cs => cases hc
  have h : ∀ n : Node, n.hasToken t = n.proper.any fun c => c.kind? = some (.token t) := by
    intro n
    rw [hasToken, proper, List.any_filter]
    congr 1
    funext c
    cases hc : c.isComment with
    | true => simp [hp c hc]
    | false => simp
  rw [h, h, proper_prune, List.any_map]
  congr 1
  funext c
  rw [Function.comp_apply, kind?_prune]

/-! Named nodes are asked for their kind, which no comment has. -/

theorem filterMap_namedChildren {β : Type} {f : Node → Option β}
    (hf : ∀ c : Node, c.isComment = true → f c = none) (n : Node) :
    n.namedChildren.filterMap f = n.properNamed.filterMap f := by
  rw [properNamed_eq, List.filterMap_filter]
  congr 1
  funext c
  cases hc : c.isComment with
  | true => simp [hf c hc]
  | false => simp

theorem flatMap_namedChildren {β : Type} {f : Node → List β}
    (hf : ∀ c : Node, c.isComment = true → f c = []) (n : Node) :
    n.namedChildren.flatMap f = n.properNamed.flatMap f := by
  rw [properNamed_eq]
  induction n.namedChildren with
  | nil => rfl
  | cons c l ih =>
    cases hc : c.isComment with
    | true => simp [hc, hf c hc, ih]
    | false => simp [hc, ih]

theorem foldl_namedChildren {β : Type} {f : β → Node → β}
    (hf : ∀ b, ∀ c : Node, c.isComment = true → f b c = b) (n : Node) (b : β) :
    n.namedChildren.foldl f b = n.properNamed.foldl f b := by
  rw [properNamed_eq, List.foldl_filter]
  congr 1
  funext b c
  cases hc : c.isComment with
  | true => simp [hf b c hc]
  | false => simp

theorem filter_kind? (k : Kind) (cs : List Node) :
    (cs.filter fun c => c.kind? = some k)
      = (cs.filter (!·.isComment)).filter fun c => c.kind? = some k := by
  rw [List.filter_filter]
  congr 1
  funext c
  cases hc : c.isComment with
  | true => simp [Option.isNone_iff_eq_none.mp hc]
  | false => simp

theorem filter_kind?_map_prune (k : Kind) (cs : List Node) :
    ((cs.map (prune lead)).filter fun c => c.kind? = some k)
      = (cs.filter fun c => c.kind? = some k).map (prune lead) := by
  simp only [List.filter_map, Function.comp_def, kind?_prune]

/-- The named nodes of one kind below a node. -/
def ofKind (k : Kind) (n : Node) : List Node := n.namedChildren.filter fun c => c.kind? = some k

theorem ofKind_prune (n : Node) :
    (n.prune lead).ofKind k = (n.ofKind k).map (prune lead) := by
  rw [ofKind, ofKind, filter_kind?, filter_kind? k n.namedChildren, ← properNamed_eq,
    ← properNamed_eq, properNamed_prune, filter_kind?_map_prune]

/-! The first named node, and what follows it down a tree. -/

/-- A tree whose first named nodes are kept, since the comments among them are or there are none. -/
def Fits (lead : Bool) (n : Node) : Prop := lead = true ∨ n.isClear = true

theorem isClear_of_mem (h : areClear cs = true) (hc : c ∈ cs) : c.isClear = true := by
  induction cs with
  | nil => cases hc
  | cons d cs ih =>
    rw [areClear, Bool.and_eq_true] at h
    rcases List.mem_cons.mp hc with rfl | hc
    · exact h.1
    · exact ih h.2 hc

theorem Fits.of_mem (h : n.Fits lead) (hc : c ∈ n.children) : c.Fits lead := by
  refine h.imp_right fun h => ?_
  cases n with
  | comment s => cases hc
  | mk k r s cs =>
    rw [isClear, Bool.and_eq_true] at h
    exact isClear_of_mem h.2 hc

theorem Fits.child? (h : n.Fits lead) (hc : n.child? r = some c) : c.Fits lead :=
  h.of_mem (mem_of_child? hc)

theorem Fits.unwrap (h : n.Fits lead) : n.unwrap.Fits lead := by
  induction n using induction_children with
  | h n ih =>
    obtain he | ⟨c, hc, he⟩ := unwrap_cases n
    · rw [he]
      exact h
    · rw [he]
      exact ih c hc (h.of_mem hc)

theorem Fits.of_mem_preorder {d : Node} (h : n.Fits lead) (hd : d ∈ n.preorder) : d.Fits lead := by
  induction n using induction_children with
  | h n ih =>
    rw [preorder_eq] at hd
    rcases List.mem_cons.mp hd with rfl | hd
    · exact h
    · obtain ⟨c, hc, hd⟩ := List.mem_flatMap.mp hd
      have hm : c ∈ n.children := (List.mem_filter.mp hc).1
      exact ih c hm (h.of_mem hm) hd

theorem head?_pruneAll
    (h : keep = true ∨ ((cs.filter isNamed).head?).any isComment = false) :
    ((pruneAll lead keep cs).filter isNamed).head? = ((cs.filter isNamed).head?).map (prune lead) := by
  induction cs generalizing keep with
  | nil => rfl
  | cons c cs ih =>
    rw [pruneAll]
    cases hn : c.isNamed with
    | true =>
      have hk : (c.isComment && !keep) = false := by
        rcases h with rfl | h
        · simp
        · simp_all
      simp [hk, hn]
    | false =>
      have hc : c.isComment = false := by
        cases hc : c.isComment with
        | false => rfl
        | true => rw [isNamed_of_isComment hc] at hn; cases hn
      simp only [List.filter_cons, hn, Bool.false_eq_true, if_false] at h
      simpa [hc, hn] using ih h

theorem first?_prune (h : n.Fits lead) (ho : n.opens = true) :
    (n.prune lead).first? = n.first?.map (prune lead) := by
  rw [first?, namedChildren, children_prune]
  refine head?_pruneAll (h.imp (fun hl => by rw [hl, ho]; rfl) fun hc => ?_)
  cases n with
  | comment s => rfl
  | mk k r s cs =>
    rw [isClear, ho, Bool.and_eq_true] at hc
    have hf : (first? (.mk k r s cs)).any isComment = false := by simpa using hc.1
    exact hf

theorem opens_of_child? (h : n.child? r = some c) (hr : r ∈ [.type, .returns, .arguments]) :
    c.opens = true := by
  have hc : c.role = some r := by simpa using List.find?_some h
  simp only [List.mem_cons, List.not_mem_nil, or_false] at hr
  rcases hr with rfl | rfl | rfl <;> simp [opens, hc]

theorem unwrap_prune (h : n.Fits lead) : (n.prune lead).unwrap = n.unwrap.prune lead := by
  induction n using induction_children with
  | h n ih =>
    by_cases hk : n.kind? = some .wrapper
    · have ho : n.opens = true := by simp [opens, hk]
      rw [unwrap_of_wrapper hk, unwrap_of_wrapper (by rw [kind?_prune, hk]), first?_prune h ho]
      cases hf : n.first? with
      | none => rfl
      | some c => exact ih c (mem_of_first? hf) (h.of_mem (mem_of_first? hf))
    · rw [unwrap_of_ne hk, unwrap_of_ne (by rwa [kind?_prune])]

/-- A walk meets what it met before, but for comments. -/
theorem filter_preorder_prune (n : Node) :
    (n.prune lead).preorder.filter (!·.isComment)
      = (n.preorder.filter (!·.isComment)).map (prune lead) := by
  have hcomment : ∀ c : Node, c.isComment = true → c.preorder.filter (!·.isComment) = [] := by
    intro c hc
    cases c with
    | comment s => rfl
    | mk k r s cs => cases hc
  induction n using induction_children with
  | h n ih =>
    cases hn : n.isComment with
    | true => rw [hcomment _ hn, hcomment _ (by rw [isComment_prune, hn]), List.map_nil]
    | false =>
      have hbelow : (n.prune lead).properNamed.flatMap (fun c => c.preorder.filter (!·.isComment))
          = (n.properNamed.flatMap fun c => c.preorder.filter (!·.isComment)).map (prune lead) := by
        rw [properNamed_prune, List.flatMap_map, List.map_flatMap]
        exact List.flatMap_congr fun c hc => ih c (mem_children_of_properNamed hc)
      rw [preorder_eq, preorder_eq n, List.filter_cons_of_pos (by simp [hn]),
        List.filter_cons_of_pos (by simp [hn]), List.filter_flatMap, List.filter_flatMap,
        flatMap_namedChildren hcomment, flatMap_namedChildren hcomment, hbelow, List.map_cons]

theorem size_prune_le (lead : Bool) (n : Node) : (n.prune lead).size ≤ n.size := by
  have hs : ∀ cs : List Node, ∀ keep, (∀ c ∈ cs, (c.prune lead).size ≤ c.size) →
      sizes (pruneAll lead keep cs) ≤ sizes cs := by
    intro cs
    induction cs with
    | nil => exact fun _ _ => Nat.le_refl _
    | cons c cs ih =>
      intro keep h
      have hc := h c (List.mem_cons_self ..)
      have hrest := ih (keep && !c.isNamed) fun d hd => h d (List.mem_cons_of_mem _ hd)
      rw [pruneAll]
      split
      · rw [sizes]
        omega
      · rw [sizes, sizes]
        omega
  induction n using induction_children with
  | h n ih =>
    rw [size_eq, size_eq n, children_prune]
    have := hs n.children (lead && n.opens) ih
    omega

theorem receiver?_prune (n : Node) : (n.prune lead).receiver? = n.receiver?.map (prune lead) := by
  rw [receiver?, receiver?, kind?_prune]
  split
  · rw [child?_prune]
    cases n.child? .callee with
    | none => rfl
    | some c =>
      simp only [Option.map_some, Option.filter_some, kind?_prune]
      split
      · exact child?_prune c .target
      · rfl
  · rfl

theorem Fits.receiver? {t : Node} (h : n.Fits lead) (ht : n.receiver? = some t) :
    t.Fits lead := by
  obtain ⟨c, hc, ht⟩ := exists_of_receiver? ht
  exact (h.of_mem hc).of_mem ht

theorem chainRootUpTo_prune {bound : Nat} (h : n.Fits lead) :
    chainRootUpTo bound (n.prune lead) = (chainRootUpTo bound n).prune lead ∧
      (chainRootUpTo bound n).Fits lead := by
  induction bound generalizing n with
  | zero => exact ⟨rfl, h⟩
  | succ bound ih =>
    rw [chainRootUpTo_succ, chainRootUpTo_succ, receiver?_prune]
    cases ht : n.receiver? with
    | none => exact ⟨rfl, h⟩
    | some t =>
      have hf := h.receiver? ht
      rw [Option.map_some]
      dsimp only
      rw [unwrap_prune hf]
      exact ih hf.unwrap

theorem chainRoot_prune (h : n.Fits lead) :
    (n.prune lead).chainRoot = n.chainRoot.prune lead ∧ n.chainRoot.Fits lead := by
  have hle := size_prune_le lead n
  have hu := size_unwrap_le (n.prune lead)
  rw [chainRoot, chainRootUpTo_congr hu (Nat.le_trans hu hle), unwrap_prune h]
  exact chainRootUpTo_prune h.unwrap

end ConventionLint.Source.Node
