import ConventionLint.Text.Bracket

/-! Where brackets close. A bracket closes where the text before is balanced: as many brackets of its
kind are open there as at its start, and never fewer in between. -/
namespace ConventionLint.Text.Bracket

variable {b : Bracket} {i j k m n : Nat} {c : Char} {cs u v : List Char}

/-- How many brackets are open behind a text in front of which `n` are, unless it closes more than
there are. -/
def level (b : Bracket) : (n : Nat) → List Char → Option Nat
  | n, [] => some n
  | n, c :: r =>
    if c = b.opening then b.level (n + 1) r
    else if c = b.closing then
      if n = 0 then none else b.level (n - 1) r
    else b.level n r

def IsBalanced (b : Bracket) (cs : List Char) : Prop := b.level 0 cs = some 0

instance (b : Bracket) (cs : List Char) : Decidable (b.IsBalanced cs) :=
  decidable_of_iff (b.level 0 cs = some 0) Iff.rfl

theorem closing_ne_opening (b : Bracket) : b.closing ≠ b.opening := by
  cases b <;> decide

theorem level_cons (b : Bracket) (n : Nat) (c : Char) (r : List Char) :
    b.level n (c :: r) = (b.level n [c]).bind fun m => b.level m r := by
  simp only [level]
  split
  · rfl
  · split
    · split <;> rfl
    · rfl

theorem level_append (b : Bracket) (n : Nat) (u v : List Char) :
    b.level n (u ++ v) = (b.level n u).bind fun m => b.level m v := by
  induction u generalizing n with
  | nil => rfl
  | cons c u ih =>
    rw [List.cons_append, level_cons, level_cons b n c u]
    cases b.level n [c] with
    | none => rfl
    | some m => exact ih m

/-- Brackets around a text stay open behind it. -/
theorem level_add (h : b.level n u = some m) (k : Nat) : b.level (n + k) u = some (m + k) := by
  induction u generalizing n with
  | nil =>
    cases h
    rfl
  | cons c u ih =>
    rw [level] at h ⊢
    split at h
    · rename_i ho
      rw [if_pos ho, Nat.add_right_comm]
      exact ih h
    · rename_i ho
      rw [if_neg ho]
      split at h
      · rename_i hc
        rw [if_pos hc]
        split at h
        · cases h
        · rename_i hn
          rw [if_neg (by omega), show n + k - 1 = n - 1 + k by omega]
          exact ih h
      · rename_i hc
        rw [if_neg hc]
        exact ih h

theorem IsBalanced.level_append (h : b.IsBalanced u) (n : Nat) (v : List Char) :
    b.level n (u ++ v) = b.level n v := by
  have hn := level_add h n
  rw [Nat.zero_add] at hn
  rw [Bracket.level_append, hn, Option.bind_some]

theorem IsBalanced.append (hu : b.IsBalanced u) (hv : b.IsBalanced v) : b.IsBalanced (u ++ v) :=
  (hu.level_append 0 v).trans hv

theorem isBalanced_of_not_mem (ho : b.opening ∉ cs) (hc : b.closing ∉ cs) : b.IsBalanced cs := by
  induction cs with
  | nil => rfl
  | cons c r ih =>
    simp only [List.mem_cons, not_or] at ho hc
    rw [IsBalanced, level, if_neg (Ne.symm ho.1), if_neg (Ne.symm hc.1)]
    exact ih ho.2 hc.2

theorem level_singleton_eq_none_iff : b.level n [c] = none ↔ c = b.closing ∧ n = 0 := by
  have hne := b.closing_ne_opening
  simp only [level]
  split
  · rename_i ho
    simp [ho, Ne.symm hne]
  · split <;> simp_all

/-- A closing bracket closes the last one if there is no other left for it to close. -/
theorem closeFrom_cons (b : Bracket) (i n : Nat) (c : Char) (r : List Char) :
    b.closeFrom i (n + 1) (c :: r) =
      (b.level n [c]).elim (some i) fun m => b.closeFrom (i + 1) (m + 1) r := by
  simp only [closeFrom, level]
  split
  · rfl
  · split
    · cases n with
      | zero => rfl
      | succ n => simp
    · rfl

/-- The brackets that are open close at the first closing bracket before which the text has closed all
it opened and all but one of the others. -/
theorem closeFrom_eq_some_iff : b.closeFrom i (n + 1) cs = some j ↔
    ∃ u v, cs = u ++ b.closing :: v ∧ j = i + u.length ∧ b.level n u = some 0 := by
  induction cs generalizing i n with
  | nil => simp [closeFrom]
  | cons c r ih =>
    rw [closeFrom_cons]
    cases hc : b.level n [c] with
    | none =>
      obtain ⟨rfl, rfl⟩ := level_singleton_eq_none_iff.mp hc
      constructor
      · intro h
        cases h
        exact ⟨[], r, rfl, rfl, rfl⟩
      · rintro ⟨u, v, he, rfl, hu⟩
        cases u with
        | nil => rfl
        | cons d u =>
          cases he
          rw [level_cons, hc] at hu
          cases hu
    | some m =>
      rw [Option.elim_some, ih]
      constructor
      · rintro ⟨u, v, rfl, rfl, hu⟩
        refine ⟨c :: u, v, rfl, by rw [List.length_cons]; omega, ?_⟩
        rw [level_cons, hc]
        exact hu
      · rintro ⟨u, v, he, rfl, hu⟩
        cases u with
        | nil =>
          -- the bracket would close the last one
          cases he
          cases hu
          rw [level_singleton_eq_none_iff.mpr ⟨rfl, rfl⟩] at hc
          cases hc
        | cons d u =>
          cases he
          rw [level_cons, hc] at hu
          exact ⟨u, v, rfl, by rw [List.length_cons]; omega, hu⟩

/-- One bracket closes behind a balanced text. -/
theorem closeFrom_one_eq_some_iff : b.closeFrom 0 1 cs = some n ↔
    ∃ u v, cs = u ++ b.closing :: v ∧ n = u.length ∧ b.IsBalanced u := by
  rw [closeFrom_eq_some_iff]
  simp only [Nat.zero_add, IsBalanced]

end ConventionLint.Text.Bracket
