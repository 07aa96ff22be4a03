import ConventionLint.Proofs.Chains
import ConventionLint.Proofs.Grammar
import ConventionLint.Proofs.Result

/-! The walk over a tree. Done with a stack, it ends and visits what a recursive preorder lists: every
named node once, before the nodes below it, and those from left to right. In a tree that was read from
a text this is the order of the source, so a module's constructions are all listed, in that order. -/
namespace ConventionLint

open Source

namespace Source.Node

variable {n c d a b : Node} {stack l : List Node} {i : Nat} {place : List Nat}

/-! A walk with a stack. -/

/-- A walk with a stack, whose top is at the end. What is taken off it is visited, and the named nodes
below that are put on it, the first one last. -/
inductive Walks : List Node → List Node → Prop where
  | done : Walks [] []
  | visit {stack : List Node} {c : Node} {l : List Node}
      (rest : Walks (stack ++ c.namedChildren.reverse) l) : Walks (stack ++ [c]) (c :: l)

theorem sizes_reverse (l : List Node) : sizes l.reverse = sizes l := by
  induction l with
  | nil => rfl
  | cons c l ih =>
    rw [List.reverse_cons, sizes_append, ih, sizes, sizes, sizes]
    omega

/-- A visit leaves the trees on the stack as they were, but for the node it takes off. -/
theorem pending_concat (stack : List Node) (c : Node) :
    (stack ++ [c]).reverse.flatMap preorder =
      c :: (stack ++ c.namedChildren.reverse).reverse.flatMap preorder := by
  simp only [List.reverse_append, List.reverse_reverse, List.flatMap_append, List.reverse_cons,
    List.reverse_nil, List.nil_append, List.flatMap_cons, List.flatMap_nil, List.append_nil]
  rw [preorder_eq c, List.cons_append]

theorem Walks.eq (h : Walks stack l) : l = stack.reverse.flatMap preorder := by
  induction h with
  | done => rfl
  | visit _ ih => rw [pending_concat, ← ih]

theorem walks_preorder (stack : List Node) : Walks stack (stack.reverse.flatMap preorder) := by
  -- the stack may grow, but the trees on it have one node less after each visit
  induction hs : sizes stack using Nat.strongRecOn generalizing stack with
  | ind k ih =>
    subst hs
    rcases stack.eq_nil_or_concat with rfl | ⟨stack, c, rfl⟩
    · exact .done
    · rw [List.concat_eq_append] at ih ⊢
      have hc : sizes c.namedChildren ≤ sizes c.children := sizes_filter_le isNamed c.children
      have hlt : sizes (stack ++ c.namedChildren.reverse) < sizes (stack ++ [c]) := by
        rw [sizes_append, sizes_append, sizes_reverse, sizes, sizes, size_eq c]
        omega
      rw [pending_concat]
      exact .visit (ih _ hlt _ rfl)

theorem walks_iff : Walks [n] l ↔ l = n.walk := by
  have hn : [n].reverse.flatMap preorder = n.walk := by simp [walk_eq]
  constructor
  · intro h
    rw [← hn]
    exact h.eq
  · rintro rfl
    rw [← hn]
    exact walks_preorder [n]

/-! Places in a tree. -/

/-- The node at a place: for each level the number of a child, where only children of some sort are
gone through. -/
def descend? (through : Node → Bool) : Node → List Nat → Option Node
  | n, [] => some n
  | n, i :: place => (n.children[i]?.filter through).bind fun c => descend? through c place

variable {through : Node → Bool}

theorem descend?_cons_iff : n.descend? through (i :: place) = some c ↔
    ∃ d, n.children[i]? = some d ∧ through d = true ∧ d.descend? through place = some c := by
  simp only [descend?, Option.bind_eq_some_iff, Option.filter_eq_some_iff, and_assoc]

/-- A list of what is made of the wanted nodes of a tree. Each place where one is found counts once; a
place comes before those below it, and those come from left to right. -/
def Lists {β : Type} (root : Node) (through wanted : Node → Bool) (f : Node → β) (l : List β) : Prop :=
  ∃ placed : List (List Nat × Node),
    placed.Pairwise (fun x y => List.Lex (· < ·) x.1 y.1) ∧
    (∀ place n, (place, n) ∈ placed ↔ root.descend? through place = some n ∧ wanted n = true) ∧
    l = placed.map fun x => f x.2

namespace Lists

variable {β γ : Type} {wanted : Node → Bool} {f : Node → β} {made : List β}

theorem filter (h : n.Lists through wanted f made) (p : β → Bool) :
    n.Lists through (fun c => wanted c && p (f c)) f (made.filter p) := by
  obtain ⟨placed, hsorted, hmem, rfl⟩ := h
  refine ⟨placed.filter fun x => p (f x.2), hsorted.filter _, fun place c => ?_, ?_⟩
  · rw [List.mem_filter, hmem, Bool.and_eq_true, and_assoc]
  · rw [List.filter_map]
    rfl

theorem map (h : n.Lists through wanted f made) (g : β → γ) :
    n.Lists through wanted (g ∘ f) (made.map g) := by
  obtain ⟨placed, hsorted, hmem, rfl⟩ := h
  exact ⟨placed, hsorted, hmem, List.map_map⟩

end Lists

mutual

/-- A node and the named nodes below it with their places, in the order of a walk. -/
def placed : Node → List (List Nat × Node)
  | .comment s => [([], .comment s)]
  | .mk k r s cs => ([], .mk k r s cs) :: placedFrom 0 cs

def placedFrom (i : Nat) : List Node → List (List Nat × Node)
  | [] => []
  | c :: cs =>
    (if c.isNamed then (placed c).map fun x => (i :: x.1, x.2) else []) ++ placedFrom (i + 1) cs

end

theorem placed_eq (n : Node) : n.placed = ([], n) :: placedFrom 0 n.children := by
  cases n <;> rfl

theorem mem_placedFrom : (place, d) ∈ placedFrom i l ↔
    ∃ j c below, place = (i + j) :: below ∧ l[j]? = some c ∧ c.isNamed = true ∧
      (below, d) ∈ c.placed := by
  induction l generalizing i with
  | nil => simp [placedFrom]
  | cons c l ih =>
    rw [placedFrom, List.mem_append, ih]
    constructor
    · rintro (h | ⟨j, e, below, rfl, he, hn, hd⟩)
      · split at h
        · rename_i hn
          obtain ⟨⟨below, e⟩, hd, heq⟩ := List.mem_map.mp h
          cases heq
          exact ⟨0, c, below, rfl, rfl, hn, hd⟩
        · cases h
      · exact ⟨j + 1, e, below, by rw [Nat.add_assoc, Nat.add_comm 1 j], he, hn, hd⟩
    · rintro ⟨j, e, below, rfl, he, hn, hd⟩
      cases j with
      | zero =>
        cases he
        rw [if_pos hn]
        exact .inl (List.mem_map.mpr ⟨(below, d), hd, rfl⟩)
      | succ j => exact .inr ⟨j, e, below, by rw [Nat.add_assoc, Nat.add_comm 1 j], he, hn, hd⟩

theorem mem_placed : (place, c) ∈ n.placed ↔ n.descend? isNamed place = some c := by
  induction place generalizing n with
  | nil =>
    rw [placed_eq, List.mem_cons, mem_placedFrom, descend?]
    constructor
    · rintro (h | ⟨j, d, below, h, -⟩)
      · cases h
        rfl
      · cases h
    · rintro ⟨⟩
      exact .inl rfl
  | cons i place ih =>
    rw [placed_eq, List.mem_cons, mem_placedFrom, descend?_cons_iff]
    constructor
    · rintro (h | ⟨j, d, below, h, hd, hn, hc⟩)
      · cases h
      · rw [Nat.zero_add] at h
        cases h
        exact ⟨d, hd, hn, ih.mp hc⟩
    · rintro ⟨d, hd, hn, hc⟩
      exact .inr ⟨i, d, place, by rw [Nat.zero_add], hd, hn, ih.mpr hc⟩

theorem pairwise_placedFrom
    (h : ∀ c ∈ l, c.placed.Pairwise fun x y => List.Lex (· < ·) x.1 y.1) :
    (placedFrom i l).Pairwise fun x y => List.Lex (· < ·) x.1 y.1 := by
  induction l generalizing i with
  | nil => exact .nil
  | cons c l ih =>
    obtain ⟨hc, hl⟩ := List.forall_mem_cons.mp h
    rw [placedFrom]
    split
    · refine List.pairwise_append.mpr ⟨?_, ih hl, ?_⟩
      · exact List.pairwise_map.mpr (hc.imp fun hxy => .cons hxy)
      · intro x hx y hy
        obtain ⟨x, -, rfl⟩ := List.mem_map.mp hx
        obtain ⟨j, d, below, hy, -⟩ := mem_placedFrom.mp hy
        rw [hy]
        exact .rel (by omega)
    · exact ih hl

theorem pairwise_placed (n : Node) : n.placed.Pairwise fun x y => List.Lex (· < ·) x.1 y.1 := by
  induction n using induction_children with
  | h n ih =>
    rw [placed_eq]
    refine .cons (fun y hy => ?_) (pairwise_placedFrom ih)
    obtain ⟨j, d, below, hy, -⟩ := mem_placedFrom.mp hy
    rw [hy]
    exact .nil

theorem map_placedFrom (h : ∀ c ∈ l, c.placed.map (·.2) = c.preorder) :
    (placedFrom i l).map (·.2) = preorders l := by
  induction l generalizing i with
  | nil => rfl
  | cons c l ih =>
    obtain ⟨hc, hl⟩ := List.forall_mem_cons.mp h
    rw [placedFrom, preorders, List.map_append, ih hl]
    split
    · rw [List.map_map, ← hc]
      rfl
    · rfl

theorem map_placed (n : Node) : n.placed.map (·.2) = n.preorder := by
  induction n using induction_children with
  | h n ih =>
    rw [placed_eq, List.map_cons, map_placedFrom ih, preorders_eq, preorder_eq]
    rfl

/-- A walk visits every node that is reached through named children once, in the order of places. -/
theorem lists_walk (n : Node) : n.Lists isNamed (fun _ => true) id n.walk := by
  refine ⟨n.placed, pairwise_placed n, fun place c => ?_, ?_⟩
  · rw [mem_placed]
    simp
  · rw [walk_eq, ← map_placed]
    rfl

/-! Places in a tree that is laid out. -/

/-- The first node stands around the second one, or ends before it starts. -/
def Precedes (a b : Node) : Prop :=
  a.span.start ≤ b.span.start ∧ b.span.stop ≤ a.span.stop ∨ a.span.stop ≤ b.span.start

/-- A node stands in the span of those above it. -/
theorem LaidOut.within (h : n.LaidOut) (hc : n.descend? through place = some c) :
    n.span.start ≤ c.span.start ∧ c.span.stop ≤ n.span.stop := by
  induction place generalizing n with
  | nil =>
    cases hc
    exact ⟨Nat.le_refl _, Nat.le_refl _⟩
  | cons i place ih =>
    obtain ⟨d, hd, -, hc⟩ := descend?_cons_iff.mp hc
    have hmem : d ∈ n.children := List.mem_of_getElem? hd
    obtain ⟨hstart, -, hstop⟩ := (h.between hmem).mem hmem
    obtain ⟨hstart', hstop'⟩ := ih (h.of_mem hmem) hc
    exact ⟨Nat.le_trans hstart hstart', Nat.le_trans hstop' hstop⟩

/-- The order of places is that of the source. -/
theorem LaidOut.precedes {p q : List Nat} (h : n.LaidOut) (hpq : List.Lex (· < ·) p q)
    (ha : n.descend? through p = some a) (hb : n.descend? through q = some b) : a.Precedes b := by
  induction hpq generalizing n with
  | nil =>
    cases ha
    exact .inl (h.within hb)
  | @cons i p q _ ih =>
    obtain ⟨c, hc, -, ha⟩ := descend?_cons_iff.mp ha
    obtain ⟨d, hd, -, hb⟩ := descend?_cons_iff.mp hb
    cases hc.symm.trans hd
    exact ih (h.of_mem (List.mem_of_getElem? hc)) ha hb
  | @rel i p j q hij =>
    obtain ⟨c, hc, -, ha⟩ := descend?_cons_iff.mp ha
    obtain ⟨d, hd, -, hb⟩ := descend?_cons_iff.mp hb
    have hmem : c ∈ n.children := List.mem_of_getElem? hc
    obtain ⟨hi, rfl⟩ := List.getElem?_eq_some_iff.mp hc
    obtain ⟨hj, rfl⟩ := List.getElem?_eq_some_iff.mp hd
    have hle := List.pairwise_iff_getElem.mp (h.between hmem).pairwise i j hi hj hij
    obtain ⟨-, hstop⟩ := (h.of_mem (List.getElem_mem hi)).within ha
    obtain ⟨hstart, -⟩ := (h.of_mem (List.getElem_mem hj)).within hb
    exact .inr (Nat.le_trans hstop (Nat.le_trans hle hstart))

/-- A named node is found through named nodes, wherever it stands. -/
theorem LaidOut.descend?_isNamed_iff (h : n.LaidOut) (hc : c.isNamed = true) :
    n.descend? isNamed place = some c ↔ n.descend? (fun _ => true) place = some c := by
  induction place generalizing n with
  | nil => rfl
  | cons i place ih =>
    rw [descend?_cons_iff, descend?_cons_iff]
    constructor
    · rintro ⟨d, hd, -, h'⟩
      exact ⟨d, hd, rfl, (ih (h.of_mem (List.mem_of_getElem? hd))).mp h'⟩
    · rintro ⟨d, hd, -, h'⟩
      have hlaid := h.of_mem (List.mem_of_getElem? hd)
      refine ⟨d, hd, ?_, (ih hlaid).mpr h'⟩
      cases place with
      | nil =>
        cases h'
        exact hc
      | cons j place =>
        obtain ⟨e, he, -⟩ := descend?_cons_iff.mp h'
        exact hlaid.isNamed_of_mem (List.mem_of_getElem? he)

theorem Lists.of_laidOut {β : Type} {wanted : Node → Bool} {f : Node → β} {made : List β}
    (h : n.Lists isNamed wanted f made) (hn : n.LaidOut)
    (hw : ∀ c : Node, wanted c = true → c.isNamed = true) :
    n.Lists (fun _ => true) wanted f made := by
  obtain ⟨placed, hsorted, hmem, rfl⟩ := h
  refine ⟨placed, hsorted, fun place c => ?_, rfl⟩
  rw [hmem]
  exact and_congr_left fun hc => hn.descend?_isNamed_iff (hw c hc)

def isConstruction (n : Node) : Bool := n.kind? = some .newExpression

theorem isNamed_of_isConstruction (h : n.isConstruction = true) : n.isNamed = true :=
  isNamed_of_kind? (of_decide_eq_true h) (by simp)

end Source.Node

namespace Module

open Node

variable {m : Module}

theorem lists_constructions (m : Module) :
    m.root.Lists isNamed isConstruction m.constructionOf m.constructions :=
  ((lists_walk m.root).filter isConstruction).map m.constructionOf

theorem lists_constructionsOf (m : Module) (constructor : String) :
    m.root.Lists isNamed
      (fun n => n.isConstruction && (m.constructionOf n).constructor = constructor)
      m.constructionOf (m.constructionsOf constructor) :=
  (lists_constructions m).filter fun c => c.constructor = constructor

/-- The walk over a tree ends, also if more visits are allowed, and is the preorder: what a stack would
visit, and every node reached through named children once, in the order of places. So a module's
constructions are those at any depth, each once, and in a module that was read they stand in that order
in the source; those of one constructor are the ones among them that call it. -/
theorem constructions_in_source_order (m : Module) :
    (∀ bound, m.root.size ≤ bound → walkUpTo bound [m.root] = m.root.walk) ∧
    (∀ l, Walks [m.root] l ↔ l = m.root.walk) ∧
    m.root.walk = m.root.preorder ∧
    m.root.Lists isNamed (fun _ => true) id m.root.walk ∧
    m.root.Lists isNamed isConstruction m.constructionOf m.constructions ∧
    (∀ constructor, m.constructionsOf constructor =
        m.constructions.filter (fun c => c.constructor = constructor) ∧
      m.root.Lists isNamed
        (fun n => n.isConstruction && (m.constructionOf n).constructor = constructor)
        m.constructionOf (m.constructionsOf constructor)) ∧
    ∀ text path, parse text path = .ok m →
      m.root.Lists (fun _ => true) isConstruction m.constructionOf m.constructions ∧
      ∀ p q a b, List.Lex (· < ·) p q → m.root.descend? (fun _ => true) p = some a →
        m.root.descend? (fun _ => true) q = some b → a.Precedes b := by
  refine ⟨fun bound hb => ?_, fun l => walks_iff, walk_eq m.root, lists_walk m.root,
    lists_constructions m, fun constructor => ?_, fun text path h => ?_⟩
  · have hs : sizes [m.root] ≤ bound := by simpa [sizes] using hb
    rw [walkUpTo_eq hs, walk_eq]
    simp
  · exact ⟨rfl, lists_constructionsOf m constructor⟩
  · obtain ⟨-, d, hd⟩ := root_of_parse h
    have hl : m.root.LaidOut := laidOut_of_parse hd
    exact ⟨(lists_constructions m).of_laidOut hl fun c => isNamed_of_isConstruction,
      fun p q a b hpq ha hb => hl.precedes hpq ha hb⟩

/-- Constructions below others, in a function and in a second statement. -/
def nestedText : String := "const a = new A(new B(x), () => [new A()]);\nf(new B());\n"

theorem constructions_nestedText : ∃ m a b, parse nestedText "a.ts" = .ok m ∧
    m.constructions.map (·.text) =
      ["new A(new B(x), () => [new A()])", "new B(x)", "new A()", "new B()"] ∧
    (m.constructionsOf "A").map (·.text) = ["new A(new B(x), () => [new A()])", "new A()"] ∧
    m.root.Lists (fun _ => true) isConstruction m.constructionOf m.constructions ∧
    m.root.descend? (fun _ => true) [0, 1, 2, 2, 1] = some a ∧
    m.root.descend? (fun _ => true) [0, 1, 2, 2, 3, 2, 1] = some b ∧
    a.isConstruction = true ∧ b.isConstruction = true ∧ a.Precedes b := by
  have h : (parse nestedText "a.ts").toOption.any fun m =>
      m.constructions.map (·.text) =
        ["new A(new B(x), () => [new A()])", "new B(x)", "new A()", "new B()"] ∧
      (m.constructionsOf "A").map (·.text) = ["new A(new B(x), () => [new A()])", "new A()"] ∧
      ((m.root.descend? (fun _ => true) [0, 1, 2, 2, 1]).any isConstruction) ∧
      ((m.root.descend? (fun _ => true) [0, 1, 2, 2, 3, 2, 1]).any isConstruction) := by
    decide +kernel
  obtain ⟨m, hm, h⟩ := exists_ok_of_any h
  obtain ⟨htexts, hof, ha, hb⟩ := of_decide_eq_true h
  obtain ⟨a, ha, hna⟩ := (Option.any_eq_true _ _).mp ha
  obtain ⟨b, hb, hnb⟩ := (Option.any_eq_true _ _).mp hb
  obtain ⟨-, -, -, -, -, -, hparsed⟩ := constructions_in_source_order m
  obtain ⟨hlists, horder⟩ := hparsed nestedText "a.ts" hm
  have hlex : List.Lex (· < ·) [0, 1, 2, 2, 1] [0, 1, 2, 2, 3, 2, 1] :=
    .cons (.cons (.cons (.cons (.rel (by decide)))))
  exact ⟨m, a, b, hm, htexts, hof, hlists, ha, hb, hna, hnb, horder _ _ a b hlex ha hb⟩

end Module

end ConventionLint
