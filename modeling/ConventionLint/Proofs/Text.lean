import ConventionLint.Text.Front

/-! The front, the back and the parts of a text, said by how the text is put together. -/
namespace ConventionLint.Text

variable {front back part cs r : List Char} {separator : Char}

theorem after?_append (front r : List Char) : after? front (front ++ r) = some r := by
  induction front with
  | nil => rfl
  | cons f fs ih => simp [after?, ih]

theorem after?_eq_some_iff : after? front cs = some r ↔ cs = front ++ r := by
  constructor
  · intro h
    fun_induction after? front cs with
    | case1 cs =>
      cases h
      rfl
    | case2 => cases h
    | case3 f fs cs ih => rw [ih h, List.cons_append]
    | case4 => cases h
  · rintro rfl
    exact after?_append front r

theorem after?_isSome_iff : (after? front cs).isSome ↔ front <+: cs := by
  simp only [Option.isSome_iff_exists, after?_eq_some_iff]
  constructor
  · rintro ⟨r, rfl⟩
    exact List.prefix_append front r
  · rintro ⟨r, rfl⟩
    exact ⟨r, rfl⟩

theorem before?_eq_some_iff : before? back cs = some front ↔ cs = front ++ back := by
  rw [before?, Option.map_eq_some_iff]
  constructor
  · rintro ⟨r, hr, rfl⟩
    rw [after?_eq_some_iff, List.reverse_eq_iff, List.reverse_append, List.reverse_reverse] at hr
    exact hr
  · rintro rfl
    exact ⟨front.reverse, by rw [List.reverse_append, after?_append], List.reverse_reverse front⟩

theorem before?_isSome_iff : (before? back cs).isSome ↔ back <:+ cs := by
  simp only [Option.isSome_iff_exists, before?_eq_some_iff]
  constructor
  · rintro ⟨front, rfl⟩
    exact List.suffix_append front back
  · rintro ⟨front, rfl⟩
    exact ⟨front, rfl⟩

/-- A part that is searched for stands somewhere in the text. -/
theorem contains_iff : contains part cs = true ↔ part <:+: cs := by
  induction cs with
  | nil => simp [contains]
  | cons c r ih =>
    rw [contains, Bool.or_eq_true, after?_isSome_iff, ih, List.infix_cons_iff]

theorem splitAt_of_not_mem (h : separator ∉ cs) : splitAt separator cs = [cs] := by
  induction cs with
  | nil => rfl
  | cons c r ih =>
    simp only [List.mem_cons, not_or] at h
    simp [splitAt, ih h.2, Ne.symm h.1]

theorem splitAt_append (h : separator ∉ front) (r : List Char) :
    splitAt separator (front ++ separator :: r) = front :: splitAt separator r := by
  induction front with
  | nil => simp [splitAt]
  | cons c f ih =>
    simp only [List.mem_cons, not_or] at h
    simp [splitAt, ih h.2, Ne.symm h.1]

/-- Parts that are joined by a separator that none of them has are got back. -/
theorem splitAt_intercalate {parts : List (List Char)} (hn : parts ≠ [])
    (h : ∀ p ∈ parts, separator ∉ p) :
    splitAt separator ([separator].intercalate parts) = parts := by
  induction parts with
  | nil => exact (hn rfl).elim
  | cons p ps ih =>
    have hp := h p (List.mem_cons_self ..)
    cases ps with
    | nil => simp [splitAt_of_not_mem hp]
    | cons q qs =>
      rw [List.intercalate_cons_cons, List.append_assoc, List.singleton_append, splitAt_append hp,
        ih (by simp) fun p hp => h p (List.mem_cons_of_mem _ hp)]

theorem splitAt_ne_nil : splitAt separator cs ≠ [] := by
  cases cs with
  | nil => simp [splitAt]
  | cons c r =>
    rw [splitAt]
    split <;> simp

theorem splitAt_cons_of_ne {c : Char} (h : c ≠ separator) (r : List Char) :
    ∃ p ps, splitAt separator r = p :: ps ∧ splitAt separator (c :: r) = (c :: p) :: ps := by
  cases hs : splitAt separator r with
  | nil => exact (splitAt_ne_nil hs).elim
  | cons p ps => exact ⟨p, ps, rfl, by simp [splitAt, h, hs]⟩

theorem splitAt_cons_self (separator : Char) (r : List Char) :
    splitAt separator (separator :: r) = [] :: splitAt separator r := by
  simp [splitAt]

/-- No part has the separator. -/
theorem not_mem_of_mem_splitAt (h : part ∈ splitAt separator cs) : separator ∉ part := by
  induction cs generalizing part with
  | nil =>
    rw [splitAt, List.mem_singleton] at h
    simp [h]
  | cons c r ih =>
    by_cases hc : c = separator
    · subst hc
      rw [splitAt_cons_self, List.mem_cons] at h
      rcases h with rfl | h
      · exact List.not_mem_nil
      · exact ih h
    · obtain ⟨p, ps, hr, hs⟩ := splitAt_cons_of_ne hc r
      rw [hr] at ih
      rw [hs, List.mem_cons] at h
      rcases h with rfl | h
      · have hp := ih (List.mem_cons_self ..)
        simp [Ne.symm hc, hp]
      · exact ih (List.mem_cons_of_mem _ h)

/-- Every other character is in one of the parts. -/
theorem exists_mem_splitAt {a : Char} (h : a ∈ cs) (ha : a ≠ separator) :
    ∃ part ∈ splitAt separator cs, a ∈ part := by
  induction cs with
  | nil => cases h
  | cons c r ih =>
    by_cases hc : c = separator
    · subst hc
      have hr : a ∈ r := by simpa [ha] using h
      obtain ⟨part, hp, hm⟩ := ih hr
      rw [splitAt_cons_self]
      exact ⟨part, List.mem_cons_of_mem _ hp, hm⟩
    · obtain ⟨p, ps, hr, hs⟩ := splitAt_cons_of_ne hc r
      rw [hs]
      rcases List.mem_cons.mp h with rfl | h
      · exact ⟨a :: p, List.mem_cons_self .., List.mem_cons_self ..⟩
      · obtain ⟨part, hp, hm⟩ := ih h
        rw [hr] at hp
        rcases List.mem_cons.mp hp with rfl | hp
        · exact ⟨c :: part, List.mem_cons_self .., List.mem_cons_of_mem _ hm⟩
        · exact ⟨part, List.mem_cons_of_mem _ hp, hm⟩

/-- What follows the last separator is the end of the last part. -/
theorem splitAt_append_end (h : separator ∉ back) (front : List Char) :
    ∃ parts part, splitAt separator (front ++ back) = parts ++ [part ++ back] := by
  induction front with
  | nil => exact ⟨[], [], splitAt_of_not_mem h⟩
  | cons c front ih =>
    obtain ⟨parts, part, hp⟩ := ih
    rw [List.cons_append, splitAt, hp]
    by_cases hc : c = separator
    · exact ⟨[] :: parts, part, by simp [hc]⟩
    · cases parts with
      | nil => exact ⟨[], c :: part, by simp [hc]⟩
      | cons p ps => exact ⟨(c :: p) :: ps, part, by simp [hc]⟩

theorem splitLast?_of_not_mem (h : separator ∉ cs) : splitLast? separator cs = none := by
  induction cs with
  | nil => rfl
  | cons c r ih =>
    simp only [List.mem_cons, not_or] at h
    simp [splitLast?, ih h.2, Ne.symm h.1]

theorem splitLast?_append (h : separator ∉ back) (front : List Char) :
    splitLast? separator (front ++ separator :: back) = some (front, back) := by
  induction front with
  | nil => simp [splitLast?, splitLast?_of_not_mem h]
  | cons c front ih => simp [splitLast?, ih]

theorem eq_takeWhile_append {c : Char} (h : c ∈ cs) :
    ∃ r, cs = cs.takeWhile (· ≠ c) ++ c :: r := by
  induction cs with
  | nil => cases h
  | cons a cs ih =>
    by_cases ha : a = c
    · exact ⟨cs, by simp [ha]⟩
    · obtain ⟨r, hr⟩ := ih (by simpa [Ne.symm ha] using h)
      refine ⟨r, ?_⟩
      rw [List.takeWhile_cons_of_pos (by simpa using ha), List.cons_append, ← hr]

/-! Lists in the order of a text that each element has. -/

variable {α : Type} {key : α → String} {l : List α}

theorem pairwise_mergeSort_key (key : α → String) (l : List α) :
    (l.mergeSort fun a b => decide (key a ≤ key b)).Pairwise fun a b => key a ≤ key b := by
  refine (List.pairwise_mergeSort ?_ ?_ l).imp fun h => decide_eq_true_iff.mp h
  · intro a b c hab hbc
    rw [decide_eq_true_iff] at hab hbc ⊢
    exact String.le_trans hab hbc
  · intro a b
    rw [Bool.or_eq_true, decide_eq_true_iff, decide_eq_true_iff]
    exact String.le_total (key a) (key b)

/-- The order is strict if the texts tell the elements apart. -/
theorem pairwise_lt_mergeSort_key (h : (l.map key).Nodup) :
    (l.mergeSort fun a b => decide (key a ≤ key b)).Pairwise fun a b => key a < key b := by
  have hne := ((List.mergeSort_perm l fun a b => decide (key a ≤ key b)).map key).nodup_iff.mpr h
  refine (pairwise_mergeSort_key key l).imp₂ ?_ (List.pairwise_map.mp hne)
  intro a b hab hne
  exact Classical.byContradiction fun hlt => hne (String.le_antisymm hab (String.not_lt.mp hlt))

end ConventionLint.Text
