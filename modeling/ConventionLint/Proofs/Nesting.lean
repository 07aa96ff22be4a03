import ConventionLint.Proofs.Balance

/-! Matching brackets. A bracket is closed by the one behind a nested word of the brackets of its kind,
and brackets of one kind that start inside one another also end there. -/
namespace ConventionLint.Text.Bracket

variable {b : Bracket} {i j k n p q d : Nat} {c : Char} {text cs u v w : List Char}

/-- Words of brackets of one kind that are nested: the empty one, and a pair of brackets around such a
word with another one behind it. -/
inductive IsNested (b : Bracket) : List Char → Prop where
  | nil : IsNested b []
  | pair {u v : List Char} : IsNested b u → IsNested b v →
      IsNested b (b.opening :: (u ++ b.closing :: v))

/-- The brackets of one kind in a text. -/
def marks (b : Bracket) (cs : List Char) : List Char :=
  cs.filter fun c => c = b.opening ∨ c = b.closing

/-- The characters strictly between two positions. -/
def between (text : List Char) (i j : Nat) : List Char := (text.drop (i + 1)).take (j - (i + 1))

/-- The bracket at `j` is the one that closes the bracket at `i`. -/
structure Closes (b : Bracket) (text : List Char) (i j : Nat) : Prop where
  opening : text[i]? = some b.opening
  closing : text[j]? = some b.closing
  lt : i < j
  nested : b.IsNested (b.marks (between text i j))

/-! Nested words are the balanced ones. -/

theorem level_opening (b : Bracket) (n : Nat) (r : List Char) :
    b.level n (b.opening :: r) = b.level (n + 1) r := by
  rw [level, if_pos rfl]

theorem level_closing (b : Bracket) (n : Nat) (r : List Char) :
    b.level (n + 1) (b.closing :: r) = b.level n r := by
  rw [level, if_neg b.closing_ne_opening, if_pos rfl, if_neg (Nat.succ_ne_zero n)]
  rfl

theorem level_of_ne (ho : c ≠ b.opening) (hc : c ≠ b.closing) (n : Nat) (r : List Char) :
    b.level n (c :: r) = b.level n r := by
  rw [level, if_neg ho, if_neg hc]

/-- Characters that are no brackets of the kind do not count. -/
theorem level_marks (b : Bracket) (n : Nat) (cs : List Char) :
    b.level n (b.marks cs) = b.level n cs := by
  induction cs generalizing n with
  | nil => rfl
  | cons c r ih =>
    by_cases hm : c = b.opening ∨ c = b.closing
    · have hf : b.marks (c :: r) = c :: b.marks r := List.filter_cons_of_pos (by simpa using hm)
      rw [hf, level_cons, level_cons b n c r]
      cases b.level n [c] with
      | none => rfl
      | some m => exact ih m
    · have hf : b.marks (c :: r) = b.marks r := List.filter_cons_of_neg (by simpa using hm)
      obtain ⟨ho, hc⟩ := not_or.mp hm
      rw [hf, ih, level_of_ne ho hc]

theorem IsNested.isBalanced (h : b.IsNested w) : b.IsBalanced w := by
  induction h with
  | nil => rfl
  | pair _ _ hu hv =>
    rw [IsBalanced, level_opening, hu.level_append, level_closing]
    exact hv

/-- Where more brackets are open in front of a text than behind it, one of them is closed in it. The
first one of those is closed behind a part that closes all it opens. -/
theorem exists_closing (h : b.level (n + d + 1) cs = some k) (hk : k ≤ d) :
    ∃ u v, cs = u ++ b.closing :: v ∧ b.level n u = some 0 := by
  induction cs generalizing n with
  | nil =>
    cases h
    omega
  | cons c r ih =>
    by_cases ho : c = b.opening
    · subst ho
      rw [level_opening, show n + d + 1 + 1 = n + 1 + d + 1 by omega] at h
      obtain ⟨u, v, rfl, hu⟩ := ih h
      exact ⟨b.opening :: u, v, rfl, by rw [level_opening, hu]⟩
    · by_cases hc : c = b.closing
      · subst hc
        cases n with
        | zero => exact ⟨[], r, rfl, rfl⟩
        | succ n =>
          rw [level_closing, show n + 1 + d = n + d + 1 by omega] at h
          obtain ⟨u, v, rfl, hu⟩ := ih h
          exact ⟨b.closing :: u, v, rfl, by rw [level_closing, hu]⟩
      · rw [level_of_ne ho hc] at h
        obtain ⟨u, v, rfl, hu⟩ := ih h
        exact ⟨c :: u, v, rfl, by rw [level_of_ne ho hc, hu]⟩

theorem isNested_of_isBalanced (hm : ∀ c ∈ w, c = b.opening ∨ c = b.closing) (h : b.IsBalanced w) :
    b.IsNested w := by
  -- the word inside the first pair and the one behind it are both shorter
  induction hs : w.length using Nat.strongRecOn generalizing w with
  | ind m ih =>
    subst hs
    cases w with
    | nil => exact .nil
    | cons c r =>
      rcases hm c (List.mem_cons_self ..) with rfl | rfl
      · rw [IsBalanced, level_opening] at h
        obtain ⟨u, v, rfl, hu⟩ := exists_closing (n := 0) (d := 0) h (Nat.le_refl 0)
        rw [IsBalanced.level_append hu, level_closing] at h
        have hmu : ∀ c ∈ u, c = b.opening ∨ c = b.closing := fun c hc => hm c (by simp [hc])
        have hmv : ∀ c ∈ v, c = b.opening ∨ c = b.closing := fun c hc => hm c (by simp [hc])
        have hlen : (b.opening :: (u ++ b.closing :: v)).length = u.length + v.length + 2 := by
          simp only [List.length_cons, List.length_append]
          omega
        exact .pair (ih u.length (by omega) hmu hu rfl) (ih v.length (by omega) hmv h rfl)
      · rw [IsBalanced, level, if_neg b.closing_ne_opening, if_pos rfl, if_pos rfl] at h
        cases h

theorem isNested_marks_iff : b.IsNested (b.marks cs) ↔ b.IsBalanced cs := by
  constructor
  · intro h
    exact (level_marks b 0 cs).symm.trans h.isBalanced
  · intro h
    refine isNested_of_isBalanced (fun c hc => ?_) ((level_marks b 0 cs).trans h)
    simpa using (List.mem_filter.mp hc).2

/-! The search for the bracket that closes another one. -/

theorem drop_of_getElem? {c : Char} (h : text[i]? = some c) : text.drop i = c :: text.drop (i + 1) := by
  obtain ⟨hi, rfl⟩ := List.getElem?_eq_some_iff.mp h
  exact List.drop_eq_getElem_cons hi

theorem closes_iff : b.Closes text i j ↔ text[i]? = some b.opening ∧
    ∃ u v, text.drop (i + 1) = u ++ b.closing :: v ∧ j = i + 1 + u.length ∧ b.IsBalanced u := by
  constructor
  · rintro ⟨ho, hc, hlt, hn⟩
    have hdrop : (text.drop (i + 1)).drop (j - (i + 1)) = b.closing :: text.drop (j + 1) := by
      rw [List.drop_drop, show i + 1 + (j - (i + 1)) = j by omega, drop_of_getElem? hc]
    have hlen : (between text i j).length = j - (i + 1) := by
      obtain ⟨hj, -⟩ := List.getElem?_eq_some_iff.mp hc
      rw [between, List.length_take, List.length_drop]
      omega
    refine ⟨ho, between text i j, text.drop (j + 1), ?_, by omega, isNested_marks_iff.mp hn⟩
    rw [← hdrop, between, List.take_append_drop]
  · rintro ⟨ho, u, v, hd, rfl, hu⟩
    have hbetween : between text i (i + 1 + u.length) = u := by
      rw [between, hd, Nat.add_sub_cancel_left, List.take_left]
    have hclose : text[i + 1 + u.length]? = some b.closing := by
      rw [← List.getElem?_drop, hd, List.getElem?_append_right (Nat.le_refl _), Nat.sub_self]
      rfl
    exact ⟨ho, hclose, by omega, by rw [hbetween]; exact isNested_marks_iff.mpr hu⟩

theorem closeAt_eq_some_iff : b.closeAt text i = some j ↔ b.Closes text i j := by
  rw [closes_iff, closeAt]
  cases hi : text[i]? with
  | none =>
    have hd : text.drop i = [] := List.drop_eq_nil_of_le (List.getElem?_eq_none_iff.mp hi)
    simp [hd]
  | some c =>
    rw [drop_of_getElem? hi]
    by_cases hc : c = b.opening
    · simp only [hc, if_pos, closeFrom_eq_some_iff, true_and]
      rfl
    · simp [hc]

theorem Closes.unique (h : b.Closes text i j) (h' : b.Closes text i k) : j = k :=
  Option.some.inj ((closeAt_eq_some_iff.mpr h).symm.trans (closeAt_eq_some_iff.mpr h'))

/-- A bracket inside a pair of its kind is closed inside of it: behind the pair there are fewer open
brackets than right behind the one inside. -/
theorem Closes.inside (h : b.Closes text p j) (hpq : p < q) (hqj : q < j)
    (hq : text[q]? = some b.opening) : ∃ k < j, b.Closes text q k := by
  obtain ⟨-, u, v, hd, rfl, hu⟩ := closes_iff.mp h
  have hlt : q - (p + 1) < u.length := by omega
  have hdq : text.drop q = u.drop (q - (p + 1)) ++ b.closing :: v := by
    rw [show q = p + 1 + (q - (p + 1)) by omega, ← List.drop_drop, hd,
      List.drop_append_of_le_length (by omega)]
    simp
  obtain ⟨r, hr⟩ : ∃ r, u.drop (q - (p + 1)) = b.opening :: r := by
    rw [drop_of_getElem? hq, List.drop_eq_getElem_cons hlt, List.cons_append] at hdq
    exact ⟨_, by rw [List.drop_eq_getElem_cons hlt, ← (List.cons.inj hdq).1]⟩
  have hsplit : u = u.take (q - (p + 1)) ++ b.opening :: r := by rw [← hr, List.take_append_drop]
  rw [IsBalanced, hsplit, level_append] at hu
  obtain ⟨m, -, hm⟩ := Option.bind_eq_some_iff.mp hu
  rw [level_opening, ← Nat.zero_add m] at hm
  obtain ⟨x, y, rfl, hx⟩ := exists_closing hm (Nat.zero_le _)
  have hdrop : text.drop (q + 1) = x ++ b.closing :: (y ++ b.closing :: v) := by
    have := congrArg List.tail hdq
    rw [hr, drop_of_getElem? hq] at this
    simpa using this
  have hlen : u.length = q - (p + 1) + (x.length + y.length + 2) := by
    rw [← List.take_append_drop (q - (p + 1)) u, hr]
    simp only [List.length_append, List.length_take, List.length_cons]
    omega
  exact ⟨q + 1 + x.length, by omega, closes_iff.mpr ⟨hq, x, _, hdrop, rfl, hx⟩⟩

theorem Closes.opening_unique (h : b.Closes text p j) (h' : b.Closes text q j) : p = q := by
  rcases Nat.lt_trichotomy p q with hlt | rfl | hlt
  · obtain ⟨k, hk, hq⟩ := h.inside hlt h'.lt h'.opening
    have := hq.unique h'
    omega
  · rfl
  · obtain ⟨k, hk, hp⟩ := h'.inside hlt h.lt h.opening
    have := hp.unique h
    omega

theorem ofOpening?_opening (b : Bracket) : ofOpening? b.opening = some b := by
  cases b <;> decide

/-- A kind of bracket is asked for by the character that opens it. -/
theorem closeOf_opening (b : Bracket) (text : List Char) (i : Int) :
    closeOf text i b.opening.toString = .ok (if i < 0 then none else b.closeAt text i.toNat) := by
  unfold closeOf bracketAt
  by_cases hi : i < 0
  · simp only [if_pos hi]
    rfl
  · simp only [if_neg hi]
    cases hc : text[i.toNat]? with
    | none =>
      have hd : text.drop i.toNat = [] := List.drop_eq_nil_of_le (List.getElem?_eq_none_iff.mp hc)
      rw [closeAt, hd]
      rfl
    | some c =>
      by_cases ho : b.opening = c
      · subst ho
        simp only [Char.toString, String.toList_singleton, if_true, ofOpening?_opening]
        rfl
      · have hne : ¬ b.opening.toString.toList = [c] := by simpa [Char.toString] using ho
        rw [closeAt, drop_of_getElem? hc]
        simp only [if_neg hne, if_neg (Ne.symm ho)]
        rfl

/-- For every text, a bracket is found to be closed exactly by the one that closes it, of which there is
no other. Nothing is found exactly for a position outside the text, a character that is not the bracket
asked for, or a bracket that is not closed. Of two brackets of a kind the second is closed inside the
first if it starts there, and no bracket closes both. -/
theorem closeOf_eq_some_iff_closes (b : Bracket) (text : List Char) :
    (∀ (i : Int) (j : Nat), closeOf text i b.opening.toString = .ok (some j) ↔
      0 ≤ i ∧ b.Closes text i.toNat j) ∧
    (∀ i j k : Nat, b.Closes text i j → b.Closes text i k → j = k) ∧
    (∀ i : Int, closeOf text i b.opening.toString = .ok none ↔
      (i < 0 ∨ text.length ≤ i) ∨ text[i.toNat]? ≠ some b.opening ∨
        ¬ ∃ j, b.Closes text i.toNat j) ∧
    (∀ p q j : Nat, closeOf text p b.opening.toString = .ok (some j) → p < q → q < j →
      text[q]? = some b.opening → ∃ k < j, closeOf text q b.opening.toString = .ok (some k)) ∧
    ∀ p q j : Nat, closeOf text p b.opening.toString = .ok (some j) →
      closeOf text q b.opening.toString = .ok (some j) → p = q := by
  have hfound : ∀ (i : Int) (j : Nat), closeOf text i b.opening.toString = .ok (some j) ↔
      0 ≤ i ∧ b.Closes text i.toNat j := by
    intro i j
    rw [closeOf_opening, Except.ok.injEq, ← closeAt_eq_some_iff]
    by_cases hi : i < 0
    · simp [hi, Int.not_le.mpr hi]
    · simp [hi, Int.not_lt.mp hi]
  have hat : ∀ p j : Nat, closeOf text p b.opening.toString = .ok (some j) ↔ b.Closes text p j := by
    intro p j
    rw [hfound, Int.toNat_natCast, and_iff_right (Int.natCast_nonneg p)]
  refine ⟨hfound, fun i j k h h' => h.unique h', fun i => ?_, fun p q j h hpq hqj hq => ?_,
    fun p q j h h' => ((hat p j).mp h).opening_unique ((hat q j).mp h')⟩
  · have hnone : closeOf text i b.opening.toString = .ok none ↔
        i < 0 ∨ ¬ ∃ j, b.Closes text i.toNat j := by
      simp only [← closeAt_eq_some_iff, ← Option.isSome_iff_exists, Option.not_isSome_iff_eq_none]
      rw [closeOf_opening, Except.ok.injEq]
      by_cases hi : i < 0 <;> simp [hi]
    rw [hnone]
    constructor
    · rintro (hi | hj)
      · exact .inl (.inl hi)
      · exact .inr (.inr hj)
    · rintro ((hi | hi) | ho | hj)
      · exact .inl hi
      · right
        rintro ⟨j, hj⟩
        have := (List.getElem?_eq_some_iff.mp hj.opening).1
        omega
      · exact .inr fun ⟨j, hj⟩ => ho hj.opening
      · exact .inr hj
  · obtain ⟨k, hk, hc⟩ := ((hat p j).mp h).inside hpq hqj hq
    exact ⟨k, hk, (hat q k).mpr hc⟩

/-- Brackets of three kinds, with a pair of round ones that crosses the angles. -/
def crossedText : List Char := ['<', '(', '[', '<', ')', '>', ']', '>', ')']

theorem closeOf_crossedText : closeOf crossedText 0 angle.opening.toString = .ok (some 7) ∧
    crossedText[3]? = some angle.opening ∧ angle.Closes crossedText 0 7 ∧
    (∃ k < 7, closeOf crossedText 3 angle.opening.toString = .ok (some k)) ∧
    closeOf crossedText 1 angle.opening.toString = .ok none := by
  obtain ⟨hfound, -, hnone, hinside, -⟩ := closeOf_eq_some_iff_closes angle crossedText
  have h : closeOf crossedText 0 angle.opening.toString = .ok (some 7) := by rfl
  have hq : crossedText[3]? = some angle.opening := by decide
  exact ⟨h, hq, ((hfound 0 7).mp h).2, hinside 0 3 7 h (by decide) (by decide) hq,
    (hnone 1).mpr (.inr (.inl (by decide)))⟩

end ConventionLint.Text.Bracket
