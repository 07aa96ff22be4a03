import ConventionLint.Database.Catalog
import ConventionLint.Module.ObjectType
import ConventionLint.Proofs.Text
import ConventionLint.Text.Line

/-! Texts without a line feed, and what keeps them so. -/
namespace ConventionLint.Text

/-- A text that stands on one line. -/
def IsLine (s : String) : Prop := '\n' ∉ s.toList

instance (s : String) : Decidable (IsLine s) := inferInstanceAs (Decidable ('\n' ∉ s.toList))

variable {s t separator : String} {cs r : List Char} {parts : List String}

theorem isLine_ofList : IsLine (String.ofList cs) ↔ '\n' ∉ cs := by
  rw [IsLine, String.toList_ofList]

theorem isLine_append : IsLine (s ++ t) ↔ IsLine s ∧ IsLine t := by
  simp [IsLine]

theorem isLine_toString (n : Nat) : IsLine (toString n) := by
  intro h
  have hd : Char.isDigit '\n' = true := by
    rw [Nat.toString_eq_ofList_toDigits, String.toList_ofList] at h
    exact Nat.isDigit_of_mem_toDigits (by decide) (by decide) h
  cases hd

theorem isLine_intercalate (hs : IsLine separator) (h : ∀ s ∈ parts, IsLine s) :
    IsLine (separator.intercalate parts) := by
  induction parts with
  | nil => simp [IsLine]
  | cons s parts ih =>
    obtain ⟨hf, hr⟩ := List.forall_mem_cons.mp h
    cases parts with
    | nil => simpa using hf
    | cons t parts =>
      rw [String.intercalate_cons_cons]
      exact isLine_append.mpr ⟨isLine_append.mpr ⟨hf, hs⟩, ih hr⟩

theorem isLine_join (h : ∀ s ∈ parts, IsLine s) : IsLine (String.join parts) := by
  rw [IsLine, String.toList_join, List.mem_flatMap]
  rintro ⟨s, hs, hn⟩
  exact h s hs hn

/-- A text is on one line if all its characters are of a sort that has no line feed. -/
theorem isLine_of_all {p : Char → Bool} (hp : p '\n' = false) (h : ∀ c ∈ cs, p c = true) :
    IsLine (String.ofList cs) := by
  rw [isLine_ofList]
  intro hn
  rw [h _ hn] at hp
  cases hp

theorem IsLine.of_subset (h : IsLine s) (hr : r ⊆ s.toList) : IsLine (String.ofList r) :=
  isLine_ofList.mpr fun hn => h (hr hn)

theorem dropEnd_subset (last : Char) (cs : List Char) : dropEnd last cs ⊆ cs := by
  intro c hc
  rw [dropEnd, List.mem_reverse] at hc
  exact List.mem_reverse.mp ((List.dropWhile_sublist _).subset hc)

theorem trimBoth_subset (p : Char → Bool) (cs : List Char) : trimBoth p cs ⊆ cs := by
  intro c hc
  rw [trimBoth, List.mem_reverse] at hc
  have hr := List.mem_reverse.mp ((List.dropWhile_sublist _).subset hc)
  exact (List.dropWhile_sublist _).subset hr

theorem subset_of_mem_splitAt {separator : Char} (h : r ∈ splitAt separator cs) : r ⊆ cs := by
  induction cs generalizing r with
  | nil =>
    rw [splitAt, List.mem_singleton] at h
    simp [h]
  | cons c cs ih =>
    by_cases hc : c = separator
    · subst hc
      rw [splitAt_cons_self, List.mem_cons] at h
      rcases h with rfl | h
      · exact List.nil_subset _
      · exact List.subset_cons_of_subset c (ih h)
    · obtain ⟨p, ps, hr, hs⟩ := splitAt_cons_of_ne hc cs
      rw [hr] at ih
      rw [hs, List.mem_cons] at h
      rcases h with rfl | h
      · exact List.cons_subset_cons c (ih (List.mem_cons_self ..))
      · exact List.subset_cons_of_subset c (ih (List.mem_cons_of_mem _ h))

/-- A line feed is a blank, so none is left. -/
theorem not_mem_collapseFrom (blank : Bool) (cs : List Char) : '\n' ∉ collapseFrom blank cs := by
  induction cs generalizing blank with
  | nil => simp [collapseFrom]
  | cons c cs ih =>
    rw [collapseFrom]
    split
    · cases blank <;> simp [ih]
    · rename_i hc
      have hn : '\n' ≠ c := by
        rintro rfl
        exact hc (by decide)
      simp [hn, ih]

theorem isLine_oneLine (text : String) (limit : Int) : IsLine (oneLine text limit) := by
  have hc : '\n' ∉ collapse text.toList := fun h =>
    not_mem_collapseFrom _ _ (trimBoth_subset _ _ h)
  rw [oneLine, isLine_ofList]
  split
  · rw [takeSigned, List.mem_append, not_or]
    exact ⟨fun h => hc (List.mem_of_mem_take h), by decide⟩
  · exact hc

theorem isLine_alternatives (h : ∀ s ∈ parts, IsLine s) : IsLine (alternatives parts) := by
  have hm : ∀ s ∈ parts.map fun s => "'" ++ s ++ "'", IsLine s := by
    intro s hs
    obtain ⟨t, ht, rfl⟩ := List.mem_map.mp hs
    exact isLine_append.mpr ⟨isLine_append.mpr ⟨by decide, h t ht⟩, by decide⟩
  unfold alternatives
  dsimp only
  generalize parts.map (fun s => "'" ++ s ++ "'") = marked at hm
  split
  · exact isLine_intercalate (by decide) hm
  · have hl : IsLine (marked.getLastD "") := by
      cases hm' : marked.getLast? with
      | none => simp +decide [hm']
      | some s =>
        have hs := hm s (List.mem_of_getLast? hm')
        simpa [hm'] using hs
    have hf : IsLine (", ".intercalate marked.dropLast) :=
      isLine_intercalate (by decide) fun s hs => hm s (List.dropLast_subset _ hs)
    exact isLine_append.mpr ⟨isLine_append.mpr ⟨hf, by decide⟩, hl⟩

end ConventionLint.Text

namespace ConventionLint

open Text

/-- A name in a type stands on one line. -/
theorem ObjectType.isLine_typeofName? {text name : String} (h : typeofName? text = some name) :
    IsLine name ∧ ∀ c, name.toList.head? = some c → isNameStart c = true := by
  obtain ⟨r, -, h⟩ := Option.bind_eq_some_iff.mp h
  cases r with
  | nil => cases h
  | cons c r =>
    dsimp only at h
    split at h
    · rename_i hc
      cases h
      rw [Bool.and_eq_true, List.all_eq_true] at hc
      have hn : '\n' ≠ c := by
        rintro rfl
        exact absurd hc.1 (by decide)
      refine ⟨?_, by simpa using hc.1⟩
      have hr : IsLine (String.ofList r) := isLine_of_all (by decide) hc.2
      rw [isLine_ofList] at hr ⊢
      simp [hn, hr]
    · cases h

theorem lt_of_isNameStart {c : Char} (h : ObjectType.isNameStart c = true) : c.toNat < 0x80 := by
  simp only [ObjectType.isNameStart, Bool.or_eq_true, decide_eq_true_eq] at h
  rcases h with (h | rfl) | rfl
  · rcases Bool.or_eq_true_iff.mp h with h | h
    · have hz : c.toNat ≤ 90 := (of_decide_eq_true h).2
      omega
    · have hz : c.toNat ≤ 122 := of_decide_eq_true (Bool.and_eq_true_iff.mp h).2
      omega
  · decide
  · decide

theorem toUpper_ne_of_ne {c : Char} (h : c ≠ '\n') : c.toUpper ≠ '\n' := by
  intro hn
  unfold Char.toUpper at hn
  split at hn
  · rename_i hc
    have ha : 97 ≤ c.toNat := hc.1
    have hz : c.toNat ≤ 122 := hc.2
    have hv := congrArg (fun c : Char => c.val.toNat) hn
    simp at hv
    omega
  · exact h hn

/-- What is left of a name without its end. -/
theorem prefix_of_before? {back cs front : List Char} (h : before? back cs = some front) :
    front <+: cs :=
  ⟨back, (before?_eq_some_iff.mp h).symm⟩

/-- The factory of a variable that is read off a type. -/
theorem isLine_testingFactoryName {name suffix : String} (hn : IsLine name)
    (hc : ∀ c, name.toList.head? = some c → ObjectType.isNameStart c = true)
    (hs : IsLine suffix) : IsLine (testingFactoryName name suffix) := by
  unfold testingFactoryName
  dsimp only
  have hstem : (if suffix.isEmpty then name.toList
      else (before? suffix.toList name.toList).getD name.toList) <+: name.toList := by
    split
    · exact List.prefix_rfl
    · cases hb : before? suffix.toList name.toList with
      | none => exact List.prefix_rfl
      | some front => exact prefix_of_before? hb
  generalize (if suffix.isEmpty then name.toList
      else (before? suffix.toList name.toList).getD name.toList) = stem at hstem
  have hcap : '\n' ∉ capitalize stem := by
    cases stem with
    | nil => simp [capitalize]
    | cons c r =>
      obtain ⟨back, hback⟩ := hstem
      have hstart : ObjectType.isNameStart c = true := hc c (by simp [← hback])
      have hline : '\n' ∉ (c :: r) ++ back := hback ▸ hn
      simp only [List.cons_append, List.mem_cons, List.mem_append, not_or] at hline
      rw [capitalize, upperChar, if_pos (lt_of_isNameStart hstart)]
      simp [Ne.symm (toUpper_ne_of_ne (Ne.symm hline.1)), hline.2.1]
  exact isLine_append.mpr ⟨isLine_append.mpr ⟨by decide, isLine_ofList.mpr hcap⟩, hs⟩

end ConventionLint
