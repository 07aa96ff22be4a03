import ConventionLint.Proofs.MemberScan

/-! The members of a body: nothing but marks and white space is lost, and splitting them again changes
nothing. -/
namespace ConventionLint.ObjectType

open Text

/-! Segments without the blanks around them. -/

/-- Segments without the blanks around them, less those that are blank. -/
def tidy (l : List (List Char)) : List (List Char) := (l.map trim).filter fun t => !t.isEmpty

/-- Members written one after the other. -/
def joined (l : List (List Char)) : List Char := [';', ' '].intercalate l

/-- What follows a member in front of others. -/
def tailOf (l : List (List Char)) : List Char := if l = [] then [] else ';' :: ' ' :: joined l

variable {s s' : Scan} {b body lead t u v x z z' : List Char} {l : List (List Char)} {c k : Char}

theorem splitMembers_eq (body : List Char) : splitMembers body = tidy (Scan.start.segments [] body) :=
  rfl

theorem tidy_append (l l' : List (List Char)) : tidy (l ++ l') = tidy l ++ tidy l' := by
  simp [tidy]

theorem tidy_cons_of_allBlank (h : AllBlank u) (l : List (List Char)) : tidy (u :: l) = tidy l := by
  simp [tidy, trim_eq_nil_iff.mpr h]

theorem tidy_cons (h : ¬ AllBlank u) (l : List (List Char)) : tidy (u :: l) = trim u :: tidy l := by
  have hn : trim u ≠ [] := mt trim_eq_nil_iff.mp h
  simp [tidy, hn]

theorem tidy_cons_bare (hb : AllBlank lead) (ht : IsBare t) (l : List (List Char)) :
    tidy ((lead ++ t) :: l) = t :: tidy l := by
  have hl : trim (lead ++ t) = t := by simpa using trim_of_isBare hb ht allBlank_nil
  simp [tidy, hl, ht.ne_nil]

theorem isBare_of_mem_tidy (h : t ∈ tidy l) : IsBare t := by
  obtain ⟨hm, hn⟩ := List.mem_filter.mp h
  obtain ⟨u, -, rfl⟩ := List.mem_map.mp hm
  exact isBare_trim (by simpa using hn)

theorem joined_cons (t : List Char) (l : List (List Char)) : joined (t :: l) = t ++ tailOf l := by
  cases l with
  | nil => simp [joined, tailOf]
  | cons u l => simp [joined, tailOf, List.intercalate_cons_cons]

theorem stops_tailOf (l : List (List Char)) : Stops (tailOf l) := by
  cases l with
  | nil => exact Or.inl rfl
  | cons u l => exact Or.inr ⟨_, rfl⟩

theorem quoteLooks_cons (h : c ≠ k) (x : List Char) : quoteLooks k (c :: x) = quoteLooks k x :=
  quoteLooks_append (x := [c]) (by simpa using h.symm) x

theorem isBlank_of_isQuote (hk : isQuote k = true) : isBlank k = false := by
  simp only [isQuote, Bool.or_eq_true, decide_eq_true_eq] at hk
  rcases hk with rfl | rfl <;> rfl

theorem quoteLooks_tailOf (hk : isQuote k = true) (l : List (List Char)) :
    quoteLooks k (tailOf l) = quoteLooks k (joined l) := by
  simp only [isQuote, Bool.or_eq_true, decide_eq_true_eq] at hk
  cases l with
  | nil => rfl
  | cons u l =>
    rw [tailOf, if_neg (List.cons_ne_nil u l)]
    rcases hk with rfl | rfl <;> rw [quoteLooks_cons (by decide), quoteLooks_cons (by decide)]

/-- A quoted key that ends in a segment without its blanks, or behind it, ends so with the blanks. -/
theorem quoteLooks_of_trim (hk : isQuote k = true) (hu : ¬ AllBlank u) (hz : Stops z')
    (hzz : quoteLooks k z' = true → quoteLooks k z = true)
    (hq : quoteLooks k (trim u ++ z') = true) : quoteLooks k (u ++ z) = true := by
  have hblank := isBlank_of_isQuote hk
  obtain ⟨b, b', hb, -, hb', he⟩ := exists_trim hu
  by_cases hm : k ∈ trim u
  · obtain ⟨x₁, x₂, hx, hn⟩ := List.eq_append_cons_of_mem hm
    rw [hx, List.append_assoc, List.cons_append, quoteLooks_at hn] at hq
    have hn' : k ∉ b ++ x₁ := by simp [hn, hb.not_mem hblank]
    have hu' : u ++ z = (b ++ x₁) ++ k :: (x₂ ++ (b' ++ z)) := by
      rw [he, hx]
      simp
    rw [hu', quoteLooks_at hn']
    exact colonFollows_append (hz.colonFollows hq) _
  · have hn : k ∉ u := by
      rw [he]
      simp [hm, hb.not_mem hblank, hb'.not_mem hblank]
    rw [quoteLooks_append hm] at hq
    rw [quoteLooks_append hn]
    exact hzz hq

theorem ne_of_endsMember {before : List Char} (hk : isQuote k = true)
    (he : endsMember before c v = true) : c ≠ k := by
  simp only [isQuote, Bool.or_eq_true, decide_eq_true_eq] at hk
  rintro rfl
  rcases endsMember_iff.mp he with hm | ⟨rfl, -⟩
  · rcases hk with rfl | rfl <;> cases hm
  · rcases hk with hk | hk <;> cases hk

/-- A quoted key that ends somewhere in the members ends there in the body too. -/
theorem Scan.Cuts.quoteLooks_of_joined (h : s.Cuts body l) (hk : isQuote k = true)
    (hq : quoteLooks k (joined (tidy l)) = true) : quoteLooks k body = true := by
  induction h with
  | @last s u hp =>
    by_cases hu : AllBlank u
    · rw [tidy_cons_of_allBlank hu] at hq
      cases hq
    · rw [tidy_cons hu, joined_cons] at hq
      have hz : quoteLooks k (u ++ []) = true :=
        quoteLooks_of_trim hk hu (stops_tailOf (tidy [])) (fun h => h) hq
      rwa [List.append_nil] at hz
  | @cut s u v c l hp hd he h ih =>
    have hc := ne_of_endsMember hk he
    by_cases hu : AllBlank u
    · rw [tidy_cons_of_allBlank hu] at hq
      rw [quoteLooks_append (hu.not_mem (isBlank_of_isQuote hk)), quoteLooks_cons hc]
      exact ih hq
    · rw [tidy_cons hu, joined_cons] at hq
      refine quoteLooks_of_trim hk hu (stops_tailOf _) (fun h => ?_) hq
      rw [quoteLooks_cons hc]
      rw [quoteLooks_tailOf hk] at h
      exact ih h

/-- What follows a member among the members alone shows no more than what follows it in the body. -/
theorem Scan.Cuts.leads (h : s.Cuts v l) {before : List Char} (he : endsMember before c v = true)
    (hb : AllBlank b) : Leads (tailOf (tidy l)) (b ++ c :: v) := by
  refine ⟨stops_tailOf _, fun k hk hq => ?_⟩
  rw [quoteLooks_tailOf hk] at hq
  rw [quoteLooks_append (hb.not_mem (isBlank_of_isQuote hk)),
    quoteLooks_cons (ne_of_endsMember hk he)]
  exact h.quoteLooks_of_joined hk hq

/-! Splitting again. -/

/-- A segment is one member, alone and behind a blank. -/
theorem tidy_segments_of_passes {lead : List Char} (h : Scan.Passes [] s lead t)
    (hl : AllBlank lead) (ht : IsBare t) : tidy (s.segments lead t) = [t] := by
  have hs := Scan.segments_append h
  rw [List.append_nil, Scan.segments_nil, List.reverse_append, List.reverse_reverse] at hs
  rw [hs]
  exact tidy_cons_bare hl.reverse ht []

/-- What was passed is passed by a scan at depth 0, and leads it to the same depth. -/
theorem passes_trim (hp : Scan.Passes v s [] u) (hf : s.Fresh u) (hd : s.depth = 0)
    (hu : ¬ AllBlank u) (hd' : s'.depth = 0) (hs : s'.last ≠ some '=') {lead : List Char}
    (hl : AllBlank lead) (hz : ∀ b, AllBlank b → Leads z (b ++ v)) :
    Scan.Passes z s' lead (trim u) ∧ s'.run (trim u) = s.run u := by
  obtain ⟨b, b', hb, hbare, hb', he⟩ := exists_trim hu
  rw [he] at hp hf
  have ha := hp.again hf (hd.trans hd'.symm) hs hb hbare hb' (hz b' hb') hl
  rwa [← he] at ha

theorem splitMembers_trim (hp : Scan.Passes v s [] u) (hf : s.Fresh u) (hd : s.depth = 0)
    (hu : ¬ AllBlank u) : splitMembers (trim u) = [trim u] := by
  have hs : Scan.start.last ≠ some '=' := by simp [Scan.start]
  have ha := passes_trim hp hf hd hu rfl hs allBlank_nil fun b _ => leads_nil (b ++ v)
  exact tidy_segments_of_passes ha.1 allBlank_nil (isBare_trim (mt trim_eq_nil_iff.mp hu))

/-- Each member alone is one member. -/
theorem Scan.Cuts.splitMembers_of_mem (h : s.Cuts body l) (hd : s.depth = 0) (hf : s.Fresh body)
    (ht : t ∈ tidy l) : splitMembers t = [t] := by
  induction h with
  | @last s u hp =>
    by_cases hu : AllBlank u
    · rw [tidy_cons_of_allBlank hu] at ht
      cases ht
    · rw [tidy_cons hu] at ht
      rcases List.mem_cons.mp ht with rfl | ht
      · exact splitMembers_trim hp hf hd hu
      · cases ht
  | @cut s u v c l hp hz he h ih =>
    by_cases hu : AllBlank u
    · rw [tidy_cons_of_allBlank hu] at ht
      exact ih hz (Scan.fresh_step he) ht
    · rw [tidy_cons hu] at ht
      rcases List.mem_cons.mp ht with rfl | ht
      · exact splitMembers_trim hp hf.of_append hd hu
      · exact ih hz (Scan.fresh_step he) ht

/-- The members written one after the other are got back, from any scan at depth 0 that starts
afresh. -/
theorem Scan.Cuts.tidy_segments_joined (h : s.Cuts body l) (hd : s.depth = 0) (hf : s.Fresh body)
    (hd' : s'.depth = 0) (hs : s'.last ≠ some '=') {lead : List Char} (hl : AllBlank lead) :
    tidy (s'.segments lead (joined (tidy l))) = tidy l := by
  induction h generalizing s' lead with
  | @last s u hp =>
    by_cases hu : AllBlank u
    · rw [tidy_cons_of_allBlank hu]
      exact tidy_cons_of_allBlank hl.reverse []
    · have ha := passes_trim hp hf hd hu hd' hs hl fun b _ => leads_nil (b ++ [])
      have ht := tidy_segments_of_passes ha.1 hl (isBare_trim (mt trim_eq_nil_iff.mp hu))
      rw [tidy_cons hu, joined_cons]
      simpa [tailOf, tidy] using ht
  | @cut s u v c l hp hz he h ih =>
    have hnext := Scan.fresh_step (s := s.run u) he
    by_cases hu : AllBlank u
    · rw [tidy_cons_of_allBlank hu]
      exact ih hz hnext hd' hs hl
    · have hbare := isBare_trim (mt trim_eq_nil_iff.mp hu)
      obtain ⟨hpass, hrun⟩ :=
        passes_trim hp hf.of_append hd hu hd' hs hl fun b hb => h.leads he hb
      rw [tidy_cons hu, joined_cons, Scan.segments_append hpass, hrun]
      by_cases hn : tidy l = []
      · rw [hn, tailOf, if_pos rfl, Scan.segments_nil, List.reverse_append, List.reverse_reverse]
        exact tidy_cons_bare hl.reverse hbare []
      · -- the semicolon ends the member, and the blank behind it belongs to the next one
        have hdepth : (s.run u).depth = 0 := (Scan.depth_of_endsMember he).symm.trans hz
        have hmark : ((s.run u).step ';').depth = 0 := hdepth
        have hblank : ¬ ((((s.run u).step ';').step ' ').depth = 0 ∧
            endsMember [] ' ' (joined (tidy l)) = true) := by
          rintro ⟨-, he⟩
          rcases endsMember_iff.mp he with hm | ⟨hm, -⟩ <;> cases hm
        have hlast : ((s.run u).step ';').last ≠ some '=' := by simp [Scan.step, isBlank]
        have hspace : AllBlank [' '] := by decide
        rw [tailOf, if_neg hn, Scan.segments_cons_end hmark (endsMember_iff.mpr (Or.inl rfl)),
          Scan.segments_cons hblank, Scan.step_of_isBlank _ (by rfl), List.reverse_append,
          List.reverse_reverse, tidy_cons_bare hl.reverse hbare, ih hz hnext hmark hlast hspace]

/-! What the segments hold. -/

/-- Each character of a text with the bracket depth behind it. -/
def Scan.depths (s : Scan) : List Char → List (Char × Nat)
  | [] => []
  | c :: r => (c, (s.step c).depth) :: (s.step c).depths r

/-- Neither blank nor a mark outside of all brackets. -/
def isKept (p : Char × Nat) : Bool := !isBlank p.1 && !(isMark p.1 && p.2 = 0)

/-- The characters of a body that no split drops. -/
def Scan.kept (s : Scan) (body : List Char) : List Char := ((s.depths body).filter isKept).map (·.1)

theorem kept_cons (s : Scan) (c : Char) (r : List Char) : s.kept (c :: r) =
    (if isKept (c, (s.step c).depth) then [c] else []) ++ (s.step c).kept r := by
  unfold Scan.kept
  rw [Scan.depths, List.filter_cons]
  split <;> rfl

theorem isKept_of_end {before r : List Char} (hd : (s.step c).depth = 0)
    (he : endsMember before c r = true) : isKept (c, (s.step c).depth) = false := by
  rcases endsMember_iff.mp he with hm | ⟨rfl, -⟩
  · simp [isKept, hm, hd]
  · rfl

theorem isKept_of_not_end {before r : List Char}
    (h : ¬ ((s.step c).depth = 0 ∧ endsMember before c r = true)) :
    isKept (c, (s.step c).depth) = !isBlank c := by
  by_cases hm : isMark c = true
  · have hd : (s.step c).depth ≠ 0 := fun hd => h ⟨hd, endsMember_iff.mpr (Or.inl hm)⟩
    simp [isKept, hd]
  · simp [isKept, hm]

theorem filter_flatten_segments (s : Scan) (before body : List Char) :
    (s.segments before body).flatten.filter (!isBlank ·)
      = before.reverse.filter (!isBlank ·) ++ s.kept body := by
  induction body generalizing s before with
  | nil => simp [Scan.segments_nil, Scan.kept, Scan.depths]
  | cons c r ih =>
    rw [kept_cons]
    by_cases h : (s.step c).depth = 0 ∧ endsMember before c r = true
    · rw [Scan.segments_cons_end h.1 h.2, List.flatten_cons, List.filter_append, ih,
        isKept_of_end h.1 h.2]
      simp
    · rw [Scan.segments_cons h, ih, List.reverse_cons, List.filter_append, List.append_assoc,
        isKept_of_not_end h]
      cases hb : isBlank c <;> simp [hb]

theorem filter_flatten_tidy (l : List (List Char)) :
    (tidy l).flatten.filter (!isBlank ·) = l.flatten.filter (!isBlank ·) := by
  induction l with
  | nil => rfl
  | cons u l ih =>
    rw [List.flatten_cons, List.filter_append, ← ih]
    by_cases hu : AllBlank u
    · rw [tidy_cons_of_allBlank hu, hu.filter, List.nil_append]
    · rw [tidy_cons hu, List.flatten_cons, List.filter_append, filter_trim]

/-- A body is cut into members that start and end with characters that are not blank; but for white
space and the marks outside of all brackets nothing is lost; and members that are split again, one by
one or all together, stay as they are. -/
theorem splitMembers_normal (body : List Char) :
    (∀ t ∈ splitMembers body, t ≠ [] ∧ (∀ c ∈ t.head?, isBlank c = false) ∧
      ∀ c ∈ t.getLast?, isBlank c = false) ∧
    (splitMembers body).flatten.filter (!isBlank ·) =
      ((Scan.start.depths body).filter fun p => !isBlank p.1 && !(isMark p.1 && p.2 = 0)).map (·.1) ∧
    (∀ t ∈ splitMembers body, splitMembers t = [t]) ∧
    splitMembers ([';', ' '].intercalate (splitMembers body)) = splitMembers body := by
  have hcuts := Scan.cuts_segments Scan.start body
  have hfresh : Scan.start.Fresh body := by
    intro hl
    cases hl
  refine ⟨fun t ht => ?_, ?_, fun t ht => ?_, ?_⟩
  · have hbare := isBare_of_mem_tidy ht
    obtain ⟨c, r, rfl, hc⟩ := hbare.head
    obtain ⟨q, d, hq, hd⟩ := hbare.last
    refine ⟨List.cons_ne_nil c r, ?_, ?_⟩
    · intro a ha
      cases ha
      exact hc
    · intro a ha
      rw [hq, List.getLast?_concat] at ha
      cases ha
      exact hd
  · rw [splitMembers_eq, filter_flatten_tidy]
    exact filter_flatten_segments Scan.start [] body
  · exact hcuts.splitMembers_of_mem rfl hfresh ht
  · have hlast : Scan.start.last ≠ some '=' := by simp [Scan.start]
    exact hcuts.tidy_segments_joined rfl hfresh rfl hlast allBlank_nil

end ConventionLint.ObjectType
