import Mathlib.Data.List.Chain
import ConventionLint.Proofs.Blank
import ConventionLint.Text.Line

/-! Texts that are shown on one line: their words with single spaces between them, cut to a limit. Such
a text is tight, and a tight text that fits is shown as it is. -/
namespace ConventionLint.Text

variable {c : Char} {cs r t w : List Char} {ws : List (List Char)} {limit : Int}

/-- The words of a text: its longest parts without blanks. -/
def wordsOf (cs : List Char) : List (List Char) := (cs.splitOnP isBlank).filter (!·.isEmpty)

/-- The words of a text with single spaces between them. -/
def spaced (cs : List Char) : List Char := [' '].intercalate (wordsOf cs)

/-- A text with no blanks but single spaces, and none of them at its ends. -/
structure IsTight (t : List Char) : Prop where
  space : ∀ c ∈ t, isBlank c = true → c = ' '
  apart : t.IsChain fun a b => ¬ (isBlank a = true ∧ isBlank b = true)
  head : ∀ c, t.head? = some c → isBlank c = false
  last : ∀ c, t.getLast? = some c → isBlank c = false

/-! Collapsing gives the words. -/

theorem wordsOf_cons_blank (h : isBlank c = true) (r : List Char) : wordsOf (c :: r) = wordsOf r := by
  rw [wordsOf, List.splitOnP_cons_eq_if_modifyHead, if_pos h]
  rfl

theorem wordsOf_singleton (h : isBlank c = false) : wordsOf [c] = [[c]] := by
  simp [wordsOf, List.splitOnP_cons_eq_if_modifyHead, h, List.splitOnP_nil]

/-- A word ends before a blank. -/
theorem wordsOf_cons_cons_blank {d : Char} (h : isBlank c = false) (hd : isBlank d = true)
    (r : List Char) : wordsOf (c :: d :: r) = [c] :: wordsOf r := by
  simp [wordsOf, List.splitOnP_cons_eq_if_modifyHead, h, hd]

/-- A word goes on with what is not blank. -/
theorem wordsOf_cons_cons {d : Char} (h : isBlank c = false) (hd : isBlank d = false) (r : List Char) :
    ∃ w ws, wordsOf (d :: r) = w :: ws ∧ wordsOf (c :: d :: r) = (c :: w) :: ws := by
  obtain ⟨p, ps, hp⟩ := List.exists_cons_of_ne_nil (List.splitOnP_ne_nil isBlank r)
  refine ⟨d :: p, ps.filter (!·.isEmpty), ?_, ?_⟩
  · simp [wordsOf, List.splitOnP_cons_eq_if_modifyHead, hd, hp]
  · simp [wordsOf, List.splitOnP_cons_eq_if_modifyHead, h, hd, hp]

/-- Behind a blank, collapsing gives the words, and so it does behind the first character of a word. A
space is left behind the last word if blanks are there. -/
theorem collapseFrom_eq (cs : List Char) :
    (∃ e, AllBlank e ∧ collapseFrom true cs = spaced cs ++ e) ∧
      ∀ c, isBlank c = false → ∃ e, AllBlank e ∧ c :: collapseFrom false cs = spaced (c :: cs) ++ e := by
  induction cs with
  | nil =>
    refine ⟨⟨[], allBlank_nil, rfl⟩, fun c hc => ⟨[], allBlank_nil, ?_⟩⟩
    simp [collapseFrom, spaced, wordsOf_singleton hc]
  | cons d r ih =>
    obtain ⟨⟨e, he, hr⟩, hword⟩ := ih
    cases hd : isBlank d with
    | true =>
      refine ⟨⟨e, he, by simp [collapseFrom, hd, hr, spaced, wordsOf_cons_blank hd]⟩, fun c hc => ?_⟩
      have hgo : c :: collapseFrom false (d :: r) = c :: ' ' :: (spaced r ++ e) := by
        simp [collapseFrom, hd, hr]
      rw [hgo, spaced, spaced, wordsOf_cons_cons_blank hc hd]
      cases hw : wordsOf r with
      | nil =>
        refine ⟨' ' :: e, ?_, by simp⟩
        exact AllBlank.append (b := [' ']) (by decide) he
      | cons w ws => exact ⟨e, he, by simp [List.intercalate_cons_cons]⟩
    | false =>
      obtain ⟨e', he', hd'⟩ := hword d hd
      have hgo : ∀ blank, collapseFrom blank (d :: r) = d :: collapseFrom false r := by
        intro blank
        simp [collapseFrom, hd]
      refine ⟨⟨e', he', (hgo true).trans hd'⟩, fun c hc => ⟨e', he', ?_⟩⟩
      obtain ⟨w, ws, hw, hcw⟩ := wordsOf_cons_cons hc hd r
      rw [hgo, hd', spaced, spaced, hw, hcw]
      cases ws <;> simp [List.intercalate_cons_cons]

theorem of_mem_wordsOf (h : w ∈ wordsOf cs) : w ≠ [] ∧ ∀ c ∈ w, isBlank c = false := by
  obtain ⟨hw, hn⟩ := List.mem_filter.mp h
  refine ⟨by simpa using hn, ?_⟩
  clear h hn
  induction cs generalizing w with
  | nil =>
    rw [List.splitOnP_nil, List.mem_singleton] at hw
    simp [hw]
  | cons d r ih =>
    rw [List.splitOnP_cons_eq_if_modifyHead] at hw
    split at hw
    · rcases List.mem_cons.mp hw with rfl | hw
      · simp
      · exact ih hw
    · rename_i hd
      obtain ⟨p, ps, hp⟩ := List.exists_cons_of_ne_nil (List.splitOnP_ne_nil isBlank r)
      rw [hp] at hw ih
      rcases List.mem_cons.mp hw with rfl | hw
      · have := ih (List.mem_cons_self ..)
        simpa [hd] using this
      · exact ih (List.mem_cons_of_mem _ hw)

/-! Tight texts. -/

theorem isTight_of_noBlank (h : ∀ c ∈ w, isBlank c = false) : IsTight w where
  space c hc hb := by
    rw [h c hc] at hb
    cases hb
  apart := by
    refine (List.pairwise_of_forall_mem_list fun a ha b _ hab => ?_).isChain
    rw [h a ha] at hab
    cases hab.1
  head c hc := h c (List.mem_of_head? hc)
  last c hc := h c (List.mem_of_getLast? hc)

/-- Tight texts stay so with a space between them. -/
theorem IsTight.append_space (hw : IsTight w) (hn : w ≠ []) (ht : IsTight t) (hnt : t ≠ []) :
    IsTight (w ++ ' ' :: t) where
  space c hc hb := by
    simp only [List.mem_append, List.mem_cons] at hc
    rcases hc with hc | rfl | hc
    · exact hw.space c hc hb
    · rfl
    · exact ht.space c hc hb
  apart := by
    refine List.isChain_append.mpr ⟨hw.apart, List.isChain_cons.mpr ⟨?_, ht.apart⟩, ?_⟩
    · intro c hc hb
      rw [ht.head c hc] at hb
      cases hb.2
    · intro c hc d _ hb
      rw [hw.last c hc] at hb
      cases hb.1
  head c hc := by
    rw [List.head?_append_of_ne_nil _ hn] at hc
    exact hw.head c hc
  last c hc := by
    rw [List.getLast?_append_of_ne_nil _ (by simp), List.getLast?_cons_of_ne_nil hnt] at hc
    exact ht.last c hc

/-- A text that is cut anywhere stays tight with something behind the cut that is not blank. -/
theorem IsTight.take_append (ht : IsTight t) (hw : ∀ c ∈ w, isBlank c = false) (hn : w ≠ []) (n : Nat) :
    IsTight (t.take n ++ w) where
  space c hc hb := by
    rcases List.mem_append.mp hc with hc | hc
    · exact ht.space c (List.mem_of_mem_take hc) hb
    · exact (isTight_of_noBlank hw).space c hc hb
  apart := by
    refine List.isChain_append.mpr ⟨ht.apart.take n, (isTight_of_noBlank hw).apart, ?_⟩
    intro c _ d hd hb
    rw [hw d (List.mem_of_head? hd)] at hb
    cases hb.2
  head c hc := by
    rw [List.head?_append] at hc
    cases hf : (t.take n).head? with
    | none =>
      rw [hf, Option.none_or] at hc
      exact hw c (List.mem_of_head? hc)
    | some d =>
      rw [hf, Option.some_or] at hc
      cases hc
      rw [List.head?_take] at hf
      split at hf
      · cases hf
      · exact ht.head c hf
  last c hc := by
    rw [List.getLast?_append_of_ne_nil _ hn] at hc
    exact hw c (List.mem_of_getLast? hc)

theorem isTight_intercalate (h : ∀ w ∈ ws, w ≠ [] ∧ ∀ c ∈ w, isBlank c = false) :
    IsTight ([' '].intercalate ws) := by
  induction ws with
  | nil => exact isTight_of_noBlank (by simp)
  | cons w ws ih =>
    obtain ⟨⟨hn, hw⟩, hws⟩ := List.forall_mem_cons.mp h
    cases ws with
    | nil => simpa using isTight_of_noBlank hw
    | cons v ws =>
      have hv : [' '].intercalate (v :: ws) ≠ [] := by
        have hne := (hws v (List.mem_cons_self ..)).1
        cases ws <;> simp [List.intercalate_cons_cons, hne]
      rw [List.intercalate_cons_cons, List.append_assoc]
      exact (isTight_of_noBlank hw).append_space hn (ih hws) hv

theorem isTight_spaced (cs : List Char) : IsTight (spaced cs) :=
  isTight_intercalate fun _ hw => of_mem_wordsOf hw

theorem IsTight.isBare (h : IsTight t) (hn : t ≠ []) : IsBare t where
  head := by
    obtain ⟨c, r, rfl⟩ := List.exists_cons_of_ne_nil hn
    exact ⟨c, r, rfl, h.head c rfl⟩
  last := ⟨t.dropLast, t.getLast hn, (List.dropLast_append_getLast hn).symm,
    h.last _ (List.getLast?_eq_some_getLast hn)⟩

theorem IsTight.trim_eq (h : IsTight t) : trim t = t := by
  by_cases hn : t = []
  · subst hn
    rfl
  · simpa using trim_of_isBare allBlank_nil (h.isBare hn) allBlank_nil

theorem collapse_eq_spaced (cs : List Char) : collapse cs = spaced cs := by
  unfold collapse
  cases cs with
  | nil => rfl
  | cons c r =>
    cases hc : isBlank c with
    | true =>
      obtain ⟨e, he, hr⟩ := (collapseFrom_eq r).1
      have hgo : collapseFrom false (c :: r) = [' '] ++ (spaced r ++ e) := by
        simp [collapseFrom, hc, hr]
      rw [hgo, trim_append_left (by decide), trim_append_right he, (isTight_spaced r).trim_eq, spaced,
        spaced, wordsOf_cons_blank hc]
    | false =>
      obtain ⟨e, he, hr⟩ := (collapseFrom_eq r).2 c hc
      have hgo : collapseFrom false (c :: r) = c :: collapseFrom false r := by
        simp [collapseFrom, hc]
      rw [hgo, hr, trim_append_right he, (isTight_spaced (c :: r)).trim_eq]

/-- Single spaces stay as they are. -/
theorem collapseFrom_of_apart {blank : Bool} (hspace : ∀ c ∈ t, isBlank c = true → c = ' ')
    (hapart : t.IsChain fun a b => ¬ (isBlank a = true ∧ isBlank b = true))
    (hblank : blank = true → ∀ c, t.head? = some c → isBlank c = false) :
    collapseFrom blank t = t := by
  induction t generalizing blank with
  | nil => rfl
  | cons c r ih =>
    obtain ⟨hc, hr⟩ := List.forall_mem_cons.mp hspace
    obtain ⟨hnext, hchain⟩ := List.isChain_cons.mp hapart
    by_cases hb : isBlank c = true
    · have hfirst : blank = false := by
        by_contra hne
        have hnot := hblank (by simpa using hne) c rfl
        rw [hb] at hnot
        cases hnot
      have hgo : collapseFrom true r = r := by
        refine ih hr hchain fun _ d hd => ?_
        simpa [hb] using hnext d hd
      rw [collapseFrom, if_pos hb, hfirst, hgo, hc hb]
      rfl
    · rw [collapseFrom, if_neg hb, ih hr hchain (by simp)]

/-- A tight text is collapsed already. -/
theorem IsTight.collapse_eq (h : IsTight t) : collapse t = t := by
  rw [collapse, collapseFrom_of_apart h.space h.apart (by simp), h.trim_eq]

/-! One line. -/

theorem isBlank_of_isLineBreak (h : isLineBreak c = true) : isBlank c = true := by
  simp only [isLineBreak, isBlank, Bool.or_eq_true, Bool.and_eq_true, decide_eq_true_eq] at h ⊢
  rcases h with (((⟨hl, hu⟩ | ⟨hl, hu⟩) | rfl) | rfl) | rfl
  · have h1 : 10 ≤ c.toNat := hl
    have h2 : '\t' ≤ c := show 9 ≤ c.toNat by omega
    tauto
  · have h1 : c.toNat ≤ 30 := hu
    have h2 : c ≤ ' ' := show c.toNat ≤ 32 by omega
    tauto
  · decide
  · decide
  · decide

theorem IsTight.noBreak (h : IsTight t) (hc : c ∈ t) : isLineBreak c = false := by
  apply Bool.eq_false_iff.mpr
  intro hb
  rw [h.space c hc (isBlank_of_isLineBreak hb)] at hb
  cases hb

theorem linesFrom_of_noBreak {line : List Char} (h : ∀ c ∈ cs, isLineBreak c = false) :
    linesFrom line cs = if (line.reverse ++ cs).isEmpty then [] else [line.reverse ++ cs] := by
  induction cs generalizing line with
  | nil => simp [linesFrom]
  | cons c r ih =>
    obtain ⟨hc, hr⟩ := List.forall_mem_cons.mp h
    have hcr : c ≠ '\r' := by
      rintro rfl
      cases hc
    rw [linesFrom, hc, if_neg Bool.false_ne_true, ih hr]
    · simp
    · intro r' he
      exact absurd he hcr

theorem lines_of_noBreak (h : ∀ c ∈ cs, isLineBreak c = false) :
    lines cs = if cs.isEmpty then [] else [cs] := by
  rw [lines, linesFrom_of_noBreak h]
  rfl

/-- The dots behind what is cut. -/
def dots : List Char := ['.', '.', '.']

theorem noBlank_dots : ∀ c ∈ dots, isBlank c = false := by simp [dots, isBlank]

theorem toList_oneLine (text : String) (h : 3 ≤ limit) : (oneLine text limit).toList =
    if limit < (spaced text.toList).length then (spaced text.toList).take (limit.toNat - 3) ++ dots
    else spaced text.toList := by
  have htake : ∀ line : List Char, takeSigned (limit - 3) line = line.take (limit.toNat - 3) := by
    intro line
    rw [takeSigned, if_neg (by omega), Int.toNat_sub'' (by omega) (by omega)]
    rfl
  rw [oneLine, String.toList_ofList, collapse_eq_spaced, htake]
  rfl

/-- A text that stands on one line of at most `limit` characters, without blanks at its ends or next to
each other. -/
structure FitsLine (limit : Int) (t : List Char) : Prop where
  length_le : t.length ≤ limit
  noBreak : ∀ c ∈ t, isLineBreak c = false
  lines_eq : lines t = if t.isEmpty then [] else [t]
  head : ∀ c, t.head? = some c → isBlank c = false
  last : ∀ c, t.getLast? = some c → isBlank c = false
  apart : t.IsChain fun a b => ¬ (isBlank a = true ∧ isBlank b = true)

theorem IsTight.fitsLine (h : IsTight t) (hl : t.length ≤ limit) : FitsLine limit t where
  length_le := hl
  noBreak _ hc := h.noBreak hc
  lines_eq := lines_of_noBreak fun _ hc => h.noBreak hc
  head := h.head
  last := h.last
  apart := h.apart

theorem isTight_oneLine (text : String) (h : 3 ≤ limit) :
    IsTight (oneLine text limit).toList ∧ (oneLine text limit).toList.length ≤ limit := by
  have htight := isTight_spaced text.toList
  rw [toList_oneLine text h]
  split
  · refine ⟨htight.take_append noBlank_dots (by decide) _, ?_⟩
    rw [List.length_append, List.length_take]
    change ((min (limit.toNat - 3) _ + 3 : Nat) : Int) ≤ limit
    omega
  · exact ⟨htight, by omega⟩

/-- For every text and every limit that has room for the dots, what is shown is a line that fits: the
words of the text with single spaces between them, or the first of its characters and the dots exactly
if it is longer. Showing it again changes nothing. -/
theorem oneLine_fits (text : String) (h : 3 ≤ limit) :
    FitsLine limit (oneLine text limit).toList ∧
    (oneLine text limit).toList =
      (if limit < (spaced text.toList).length then
        (spaced text.toList).take (limit.toNat - 3) ++ dots
      else spaced text.toList) ∧
    oneLine (oneLine text limit) limit = oneLine text limit := by
  obtain ⟨htight, hle⟩ := isTight_oneLine text h
  refine ⟨htight.fitsLine hle, toList_oneLine text h, ?_⟩
  apply String.toList_inj.mp
  have hsame : spaced (oneLine text limit).toList = (oneLine text limit).toList := by
    rw [← collapse_eq_spaced, htight.collapse_eq]
  rw [toList_oneLine _ h, hsame, if_neg (by omega)]

/-- The cut comes right behind a space. -/
theorem oneLine_fits_cut_at_space : (3 : Int) ≤ 5 ∧
    oneLine "\ta\u2028\u3000bc\u0085 d\r\n" 5 = "a ..." ∧ FitsLine 5 "a ...".toList ∧
    oneLine "a ..." 5 = "a ..." := by
  have hshown : oneLine "\ta\u2028\u3000bc\u0085 d\r\n" 5 = "a ..." := by decide
  have hlimit : (3 : Int) ≤ 5 := by decide
  obtain ⟨hfits, -, hagain⟩ := oneLine_fits "\ta\u2028\u3000bc\u0085 d\r\n" hlimit
  rw [hshown] at hfits hagain
  exact ⟨hlimit, hshown, hfits, hagain⟩

end ConventionLint.Text
