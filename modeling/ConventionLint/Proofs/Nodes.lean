import ConventionLint.Module.Construction

/-! Walks through a tree: none of them is cut short by its bound, so that a walk over all nodes is the
preorder and a chain is followed to its root. -/
namespace ConventionLint.Source.Node

variable {n c v : Node} {l : List Node} {r : Role}

/-- The first named node below a node. -/
def first? (n : Node) : Option Node := n.namedChildren.head?

theorem mem_of_first? (h : n.first? = some c) : c ∈ n.children :=
  (List.mem_filter.mp (List.mem_of_head? h)).1

theorem mem_of_child? (h : n.child? r = some c) : c ∈ n.children :=
  List.mem_of_find?_eq_some h

theorem size_eq (n : Node) : n.size = 1 + sizes n.children := by
  cases n <;> rfl

theorem size_le_sizes (h : c ∈ l) : c.size ≤ sizes l := by
  induction l with
  | nil => cases h
  | cons d l ih =>
    rw [sizes]
    rcases List.mem_cons.mp h with rfl | h
    · omega
    · have := ih h
      omega

theorem size_lt_of_mem (h : c ∈ n.children) : c.size < n.size := by
  have := size_le_sizes h
  rw [size_eq n]
  omega

/-- What holds of a node once it holds of the nodes below it holds of every tree. -/
theorem induction_children {P : Node → Prop} (h : ∀ n : Node, (∀ c ∈ n.children, P c) → P n)
    (n : Node) : P n := by
  induction hs : n.size using Nat.strongRecOn generalizing n with
  | ind k ih =>
    subst hs
    exact h n fun c hc => ih c.size (size_lt_of_mem hc) c rfl

theorem unwrapFirst_eq (l : List Node) : unwrapFirst l = ((l.filter isNamed).head?).map unwrap := by
  induction l with
  | nil => rfl
  | cons c l ih =>
    rw [unwrapFirst]
    cases hc : c.isNamed with
    | true => simp [hc]
    | false => simp [hc, ih]

theorem unwrap_of_wrapper (h : n.kind? = some .wrapper) :
    n.unwrap = (n.first?.map unwrap).getD n := by
  cases n with
  | comment s => cases h
  | mk k role s cs =>
    cases h
    rw [unwrap, unwrapFirst_eq]
    rfl

theorem unwrap_of_ne (h : n.kind? ≠ some .wrapper) : n.unwrap = n := by
  cases n with
  | comment s => rfl
  | mk k role s cs =>
    have hk : k ≠ .wrapper := fun hk => h (by rw [hk]; rfl)
    cases k <;> first | rfl | exact (hk rfl).elim

/-- What is unwrapped is the node itself or stands below it. -/
theorem unwrap_cases (n : Node) : n.unwrap = n ∨ ∃ c ∈ n.children, n.unwrap = c.unwrap := by
  by_cases hk : n.kind? = some .wrapper
  · rw [unwrap_of_wrapper hk]
    cases hf : n.first? with
    | none => exact Or.inl rfl
    | some c => exact Or.inr ⟨c, mem_of_first? hf, rfl⟩
  · exact Or.inl (unwrap_of_ne hk)

theorem size_unwrap_le (n : Node) : n.unwrap.size ≤ n.size := by
  induction n using induction_children with
  | h n ih =>
    obtain h | ⟨c, hc, h⟩ := unwrap_cases n
    · exact Nat.le_of_eq (congrArg size h)
    · rw [h]
      exact Nat.le_trans (ih c hc) (Nat.le_of_lt (size_lt_of_mem hc))

/-! A walk over all nodes. -/

mutual

/-- A node and the named nodes below it, each before the nodes below that. -/
def preorder : Node → List Node
  | .comment s => [.comment s]
  | .mk k r s cs => .mk k r s cs :: preorders cs

def preorders : List Node → List Node
  | [] => []
  | c :: cs => if c.isNamed then preorder c ++ preorders cs else preorders cs

end

theorem preorders_eq (l : List Node) : preorders l = (l.filter isNamed).flatMap preorder := by
  induction l with
  | nil => rfl
  | cons c l ih =>
    rw [preorders, ih]
    cases hc : c.isNamed <;> simp [hc]

theorem preorder_eq (n : Node) : n.preorder = n :: n.namedChildren.flatMap preorder := by
  cases n with
  | comment s => rfl
  | mk k r s cs =>
    rw [preorder, preorders_eq]
    rfl

theorem sizes_append (l m : List Node) : sizes (l ++ m) = sizes l + sizes m := by
  induction l with
  | nil => simp [sizes]
  | cons c l ih =>
    rw [List.cons_append, sizes, sizes, ih]
    omega

theorem sizes_filter_le (p : Node → Bool) (l : List Node) : sizes (l.filter p) ≤ sizes l := by
  induction l with
  | nil => exact Nat.le_refl _
  | cons c l ih =>
    rw [List.filter_cons, sizes]
    split
    · rw [sizes]
      omega
    · omega

/-- A walk that may visit as many nodes as there are visits all of them. -/
theorem walkUpTo_eq {bound : Nat} (h : sizes l ≤ bound) :
    walkUpTo bound l = l.flatMap preorder := by
  induction bound generalizing l with
  | zero =>
    cases l with
    | nil => rfl
    | cons c l =>
      rw [sizes, size_eq] at h
      omega
  | succ bound ih =>
    cases l with
    | nil => rfl
    | cons c l =>
      have hc : sizes c.namedChildren ≤ sizes c.children := sizes_filter_le _ _
      have hs : sizes (c.namedChildren ++ l) ≤ bound := by
        rw [sizes, size_eq] at h
        rw [sizes_append]
        omega
      rw [walkUpTo, ih hs, List.flatMap_append, List.flatMap_cons, preorder_eq c, List.cons_append]

theorem walk_eq (n : Node) : n.walk = n.preorder := by
  have hs : sizes [n] ≤ n.size := by simp [sizes]
  rw [walk, walkUpTo_eq hs]
  simp

/-! The root of a chain of method calls. -/

/-- What a method call is applied to. -/
def receiver? (v : Node) : Option Node :=
  if v.kind? = some .callExpression then
    ((v.child? .callee).filter fun c => c.kind? = some .memberExpression).bind (·.child? .target)
  else none

theorem chainRootUpTo_succ (bound : Nat) (v : Node) :
    chainRootUpTo (bound + 1) v =
      match v.receiver? with
      | some t => chainRootUpTo bound t.unwrap
      | none => v := by
  rw [chainRootUpTo, receiver?]
  split
  · rfl
  · rfl

theorem exists_of_receiver? {t : Node} (h : v.receiver? = some t) :
    ∃ c ∈ v.children, t ∈ c.children := by
  unfold receiver? at h
  split at h
  · obtain ⟨c, hc, ht⟩ := Option.bind_eq_some_iff.mp h
    exact ⟨c, mem_of_child? (Option.filter_eq_some_iff.mp hc).1, mem_of_child? ht⟩
  · cases h

theorem size_receiver?_lt {t : Node} (h : v.receiver? = some t) : t.size < v.size := by
  obtain ⟨c, hc, ht⟩ := exists_of_receiver? h
  exact Nat.lt_trans (size_lt_of_mem ht) (size_lt_of_mem hc)

/-- A chain has fewer calls than nodes, so that two bounds of that size lead to the same root. -/
theorem chainRootUpTo_congr {bound bound' : Nat} (h : v.size ≤ bound) (h' : v.size ≤ bound') :
    chainRootUpTo bound v = chainRootUpTo bound' v := by
  induction bound generalizing v bound' with
  | zero =>
    rw [size_eq] at h
    omega
  | succ bound ih =>
    cases bound' with
    | zero =>
      rw [size_eq] at h'
      omega
    | succ bound' =>
      rw [chainRootUpTo_succ, chainRootUpTo_succ]
      cases ht : v.receiver? with
      | none => rfl
      | some t =>
        have hlt := size_receiver?_lt ht
        have hle := size_unwrap_le t
        exact ih (by omega) (by omega)

end ConventionLint.Source.Node
