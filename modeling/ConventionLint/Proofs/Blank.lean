import Mathlib.Data.List.TakeWhile
import ConventionLint.Text.Blank
import ConventionLint.Text.Word

/-! White space at the ends of a text. -/
namespace ConventionLint.Text

variable {b b' cs t r : List Char} {c : Char}

/-- A text of white space only. -/
def AllBlank (cs : List Char) : Prop := ∀ c ∈ cs, isBlank c = true

instance (cs : List Char) : Decidable (AllBlank cs) :=
  decidable_of_iff (cs.all isBlank = true) List.all_eq_true

/-- A text that starts and ends with characters that are not blank. -/
structure IsBare (t : List Char) : Prop where
  head : ∃ c r, t = c :: r ∧ isBlank c = false
  last : ∃ r c, t = r ++ [c] ∧ isBlank c = false

theorem allBlank_nil : AllBlank [] := by
  intro c hc
  cases hc

theorem AllBlank.append (h : AllBlank b) (h' : AllBlank b') : AllBlank (b ++ b') := by
  intro c hc
  rcases List.mem_append.mp hc with hc | hc
  · exact h c hc
  · exact h' c hc

theorem AllBlank.reverse (h : AllBlank b) : AllBlank b.reverse := by
  intro c hc
  exact h c (List.mem_reverse.mp hc)

theorem AllBlank.filter (h : AllBlank b) : b.filter (!isBlank ·) = [] := by
  apply List.filter_eq_nil_iff.mpr
  intro c hc
  simp [h c hc]

theorem AllBlank.not_mem (h : AllBlank b) (hc : isBlank c = false) : c ∉ b := by
  intro hm
  have hb := h c hm
  rw [hc] at hb
  cases hb

theorem IsBare.ne_nil (h : IsBare t) : t ≠ [] := by
  obtain ⟨c, r, rfl, -⟩ := h.head
  exact List.cons_ne_nil c r

/-! Blanks at the front. -/

theorem trimLeft_append (h : AllBlank b) (r : List Char) : trimLeft (b ++ r) = trimLeft r :=
  List.dropWhile_append_of_pos h

theorem trimLeft_cons (h : isBlank c = false) (r : List Char) : trimLeft (c :: r) = c :: r := by
  simp [trimLeft, h]

theorem trimLeft_eq_nil_iff : trimLeft cs = [] ↔ AllBlank cs :=
  List.dropWhile_eq_nil_iff

/-- Dropping stops at a character that is not dropped. -/
theorem head_of_dropWhile {p : Char → Bool} (h : cs.dropWhile p = c :: r) : p c = false := by
  have hn : cs.dropWhile p ≠ [] := by
    rw [h]
    exact List.cons_ne_nil c r
  have hh := List.head_dropWhile_not p hn
  simpa only [h, List.head_cons] using hh

theorem isBlank_of_trimLeft (h : trimLeft cs = c :: r) : isBlank c = false :=
  head_of_dropWhile h

theorem exists_trimLeft (cs : List Char) : ∃ b, AllBlank b ∧ cs = b ++ trimLeft cs := by
  refine ⟨cs.takeWhile isBlank, ?_, (List.takeWhile_append_dropWhile ..).symm⟩
  intro c hc
  exact List.mem_takeWhile_imp hc

/-- What is not blank stops the blanks, so that what follows it does not matter. -/
theorem trimLeft_append_of_ne_nil (h : trimLeft cs ≠ []) (r : List Char) :
    trimLeft (cs ++ r) = trimLeft cs ++ r := by
  obtain ⟨b, hb, he⟩ := exists_trimLeft cs
  obtain ⟨c, x, hx⟩ := List.exists_cons_of_ne_nil h
  have hc := isBlank_of_trimLeft hx
  rw [he, List.append_assoc, trimLeft_append hb, trimLeft_append hb, hx, List.cons_append,
    trimLeft_cons hc, trimLeft_cons hc, List.cons_append]

/-! Blanks at both ends. -/

theorem trimBoth_eq_nil_iff {p : Char → Bool} {cs : List Char} :
    trimBoth p cs = [] ↔ ∀ c ∈ cs, p c = true := by
  unfold trimBoth
  rw [List.reverse_eq_nil_iff, List.dropWhile_eq_nil_iff]
  constructor
  · intro h
    rw [← List.dropWhile_eq_nil_iff]
    by_contra hn
    -- what is left at the front is not dropped from the other end
    have hp := List.head_dropWhile_not p hn
    have hm := h _ (List.mem_reverse.mpr (List.head_mem hn))
    rw [hm] at hp
    cases hp
  · intro h c hc
    have hd : c ∈ cs.dropWhile p := List.mem_reverse.mp hc
    exact h c ((List.dropWhile_suffix p).subset hd)

theorem trim_eq_nil_iff : trim cs = [] ↔ AllBlank cs := trimBoth_eq_nil_iff

theorem trim_of_isBare (hb : AllBlank b) (ht : IsBare t) (hb' : AllBlank b') :
    trim (b ++ (t ++ b')) = t := by
  obtain ⟨c, r, rfl, hc⟩ := ht.head
  obtain ⟨q, d, hq, hd⟩ := ht.last
  have hfront : (b ++ (c :: r ++ b')).dropWhile isBlank = c :: r ++ b' :=
    (trimLeft_append hb _).trans (trimLeft_cons hc _)
  have hback : (b'.reverse ++ (q ++ [d]).reverse).dropWhile isBlank = (q ++ [d]).reverse := by
    rw [List.reverse_append]
    exact (trimLeft_append hb'.reverse _).trans (trimLeft_cons hd _)
  unfold trim trimBoth
  rw [hfront, List.reverse_append, hq, hback, List.reverse_reverse]

/-- A text with a character that is not blank is its trimmed part with blanks around it. -/
theorem exists_trim (h : ¬ AllBlank cs) :
    ∃ b b', AllBlank b ∧ IsBare (trim cs) ∧ AllBlank b' ∧ cs = b ++ (trim cs ++ b') := by
  obtain ⟨b, hb, he⟩ := exists_trimLeft cs
  obtain ⟨c, r, hr⟩ := List.exists_cons_of_ne_nil (mt trimLeft_eq_nil_iff.mp h)
  have hc := isBlank_of_trimLeft hr
  obtain ⟨b', hb', he'⟩ := exists_trimLeft (c :: r).reverse
  have hn : trimLeft (c :: r).reverse ≠ [] := by
    intro hn
    have hall := trimLeft_eq_nil_iff.mp hn
    exact hall.not_mem hc (by simp)
  obtain ⟨d, q, hq⟩ := List.exists_cons_of_ne_nil hn
  have hd := isBlank_of_trimLeft hq
  -- read from the back, the rest is blanks before `d`
  have hcr : c :: r = (q.reverse ++ [d]) ++ b'.reverse := by
    rw [hq] at he'
    have := congrArg List.reverse he'
    simpa using this
  have hbare : IsBare (q.reverse ++ [d]) := by
    refine ⟨?_, q.reverse, d, rfl, hd⟩
    cases hf : q.reverse ++ [d] with
    | nil => simp at hf
    | cons f x =>
      rw [hf] at hcr
      cases hcr
      exact ⟨c, x, rfl, hc⟩
  have hcs : cs = b ++ ((q.reverse ++ [d]) ++ b'.reverse) := by rw [← hcr, ← hr, ← he]
  have ht : trim cs = q.reverse ++ [d] := by rw [hcs, trim_of_isBare hb hbare hb'.reverse]
  refine ⟨b, b'.reverse, hb, ?_, hb'.reverse, ?_⟩
  · rw [ht]
    exact hbare
  · rw [ht]
    exact hcs

theorem isBare_trim (h : trim cs ≠ []) : IsBare (trim cs) := by
  obtain ⟨b, b', -, ht, -⟩ := exists_trim (mt trim_eq_nil_iff.mpr h)
  exact ht

theorem trim_append_left (hb : AllBlank b) (cs : List Char) : trim (b ++ cs) = trim cs := by
  unfold trim trimBoth
  rw [List.dropWhile_append_of_pos hb]

theorem trim_append_right (hb : AllBlank b) (cs : List Char) : trim (cs ++ b) = trim cs := by
  by_cases h : AllBlank cs
  · rw [trim_append_left h, trim_eq_nil_iff.mpr hb, trim_eq_nil_iff.mpr h]
  · obtain ⟨b₁, b₂, hb₁, ht, hb₂, he⟩ := exists_trim h
    have hcs : cs ++ b = b₁ ++ (trim cs ++ (b₂ ++ b)) := by
      conv => lhs; rw [he]
      simp
    rw [hcs, trim_of_isBare hb₁ ht (hb₂.append hb)]

theorem AllBlank.of_filter (h : cs.filter (!isBlank ·) = []) : AllBlank cs := by
  intro c hc
  simpa using List.filter_eq_nil_iff.mp h c hc

theorem filter_trim (cs : List Char) : (trim cs).filter (!isBlank ·) = cs.filter (!isBlank ·) := by
  by_cases h : AllBlank cs
  · rw [trim_eq_nil_iff.mpr h, h.filter, List.filter_nil]
  · obtain ⟨b, b', hb, -, hb', he⟩ := exists_trim h
    have hf := congrArg (List.filter (!isBlank ·)) he
    rw [List.filter_append, List.filter_append, hb.filter, hb'.filter, List.nil_append,
      List.append_nil] at hf
    exact hf.symm

/-! No blank is a word character. -/

/-- The code points of blanks above the ASCII range. -/
def farBlanks : List Nat :=
  [0x85, 0xa0, 0x1680, 0x2000, 0x2001, 0x2002, 0x2003, 0x2004, 0x2005, 0x2006, 0x2007, 0x2008,
   0x2009, 0x200a, 0x2028, 0x2029, 0x202f, 0x205f, 0x3000]

theorem toNat_of_isBlank (h : isBlank c = true) : c.toNat ≤ 32 ∨ c.toNat ∈ farBlanks := by
  simp only [isBlank, Bool.or_eq_true, Bool.and_eq_true, decide_eq_true_eq] at h
  rcases h with (((((((((⟨-, h⟩ | ⟨-, h⟩) | rfl) | rfl) | rfl) | ⟨hl, h⟩) | rfl) | rfl) | rfl) | rfl) |
    rfl
  · have hn : c.toNat ≤ 13 := h
    omega
  · exact Or.inl h
  · exact Or.inr (by decide)
  · exact Or.inr (by decide)
  · exact Or.inr (by decide)
  · have hl' : 0x2000 ≤ c.toNat := hl
    have hn : c.toNat ≤ 0x200a := h
    right
    simp only [farBlanks, List.mem_cons, List.not_mem_nil, or_false]
    omega
  · exact Or.inr (by decide)
  · exact Or.inr (by decide)
  · exact Or.inr (by decide)
  · exact Or.inr (by decide)
  · exact Or.inr (by decide)

theorem le_of_isAlphanum (h : c.isAlphanum = true) : 48 ≤ c.toNat := by
  rcases Bool.or_eq_true_iff.mp h with h | h
  · rcases Bool.or_eq_true_iff.mp h with h | h
    · have hz : 65 ≤ c.toNat := (of_decide_eq_true h).1
      omega
    · have hz : 97 ≤ c.toNat := of_decide_eq_true (Bool.and_eq_true_iff.mp h).1
      omega
  · exact of_decide_eq_true (Bool.and_eq_true_iff.mp h).1

theorem isWord_of_isBlank (h : isBlank c = true) : isWord c = false := by
  have hfar : ∀ n ∈ farBlanks, ¬ n < 0x80 ∧ inRanges letterRanges n = false := by decide +kernel
  apply Bool.eq_false_iff.mpr
  intro hw
  rw [isWord] at hw
  rcases toNat_of_isBlank h with hc | hc
  · rw [if_pos (by omega)] at hw
    rcases Bool.or_eq_true_iff.mp hw with hw | hw
    · have := le_of_isAlphanum hw
      omega
    · rw [of_decide_eq_true hw] at h
      cases h
  · obtain ⟨hn, hr⟩ := hfar _ hc
    rw [if_neg hn, hr] at hw
    cases hw

end ConventionLint.Text
