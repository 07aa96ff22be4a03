import ConventionLint.Proofs.AliasSearch
import ConventionLint.Proofs.Members
import ConventionLint.Proofs.TypeComments

/-! Comments on lines of their own in the body of an object type. Such a line becomes a blank one,
and blank lines between members leave the members as they are. -/
namespace ConventionLint.ObjectType

open Text

variable {s : Scan} {b before q u v v' w x : List Char} {c k : Char}

/-! What is visible of a member across the end of a line does not depend on blanks behind it. -/

theorem trimLeft_line (h : trimLeft v = trimLeft v') (hx : trimLeft x = []) :
    trimLeft (x ++ '\n' :: v) = trimLeft (x ++ '\n' :: v') := by
  have hb := (trimLeft_eq_nil_iff.mp hx).append (show AllBlank ['\n'] by decide)
  have he : ∀ y, x ++ '\n' :: y = (x ++ ['\n']) ++ y := fun y => by simp
  rw [he v, he v', trimLeft_append hb, trimLeft_append hb, h]

theorem head?_trimLeft_line (h : trimLeft v = trimLeft v') (x : List Char) :
    (trimLeft (x ++ '\n' :: v)).head? = (trimLeft (x ++ '\n' :: v')).head? := by
  by_cases hx : trimLeft x = []
  · rw [trimLeft_line h hx]
  · obtain ⟨c, y, hy⟩ := List.exists_cons_of_ne_nil hx
    rw [trimLeft_append_of_ne_nil hx, trimLeft_append_of_ne_nil hx, hy]
    rfl

theorem colonFollows_line (h : trimLeft v = trimLeft v') (x : List Char) :
    colonFollows (x ++ '\n' :: v) = colonFollows (x ++ '\n' :: v') := by
  cases x with
  | nil =>
    have hl := head?_trimLeft_line h []
    simp only [List.nil_append] at hl
    simp [colonFollows, hl]
  | cons c x =>
    by_cases hc : c = '?'
    · subst hc
      simp [colonFollows, head?_trimLeft_line h x]
    · have hl := head?_trimLeft_line h (c :: x)
      simp only [List.cons_append] at hl
      simp [colonFollows, hc, hl]

theorem quoteLooks_trimLeft (hk : isQuote k = true) (v : List Char) :
    quoteLooks k (trimLeft v) = quoteLooks k v := by
  obtain ⟨b, hb, he⟩ := exists_trimLeft v
  conv => rhs; rw [he, quoteLooks_append (hb.not_mem (isBlank_of_isQuote hk))]

theorem isSome_head?_line (h : trimLeft v = trimLeft v') (q : List Char) :
    (head? (q ++ '\n' :: v)).isSome = (head? (q ++ '\n' :: v')).isSome := by
  cases q with
  | nil => rw [List.nil_append, List.nil_append, head?_eq_none rfl rfl, head?_eq_none rfl rfl]
  | cons c x =>
    rw [List.cons_append, List.cons_append]
    cases hn : isNameStart c with
    | true =>
      rw [isSome_head?_name hn, isSome_head?_name hn]
      have hline : ∀ y, ('\n' :: y).dropWhile isNameChar = '\n' :: y := fun y =>
        List.dropWhile_cons_of_neg (by decide)
      by_cases hx : ∀ d ∈ x, isNameChar d = true
      · rw [List.dropWhile_append_of_pos hx, List.dropWhile_append_of_pos hx, hline, hline]
        exact colonFollows_line h []
      · have hd : ∀ y, (x ++ y).dropWhile isNameChar = x.dropWhile isNameChar ++ y := by
          intro y
          rw [List.dropWhile_append, if_neg]
          simpa [List.dropWhile_eq_nil_iff] using hx
        rw [hd, hd]
        exact colonFollows_line h _
    | false =>
      cases hk : isQuote c with
      | true =>
        rw [isSome_head?_quote hk, isSome_head?_quote hk]
        by_cases hx : c ∈ x
        · obtain ⟨x₁, x₂, rfl, hn⟩ := List.eq_append_cons_of_mem hx
          rw [List.append_assoc, List.append_assoc, List.cons_append, List.cons_append,
            quoteLooks_at hn, quoteLooks_at hn]
          exact colonFollows_line h x₂
        · have hl : '\n' ≠ c := by
            rintro rfl
            cases hk
          rw [quoteLooks_append hx, quoteLooks_append hx, quoteLooks_cons hl, quoteLooks_cons hl,
            ← quoteLooks_trimLeft hk v, h, quoteLooks_trimLeft hk]
      | false => rw [head?_eq_none hn hk, head?_eq_none hn hk]

/-- A word in front of a line feed is the word of another text in front of it, or none of both. -/
theorem after?_line {word : List Char} (hw : '\n' ∉ word) (q v : List Char) :
    after? word (q ++ '\n' :: v) = (after? word q).map (· ++ '\n' :: v) := by
  induction word generalizing q with
  | nil => rfl
  | cons a word ih =>
    simp only [List.mem_cons, not_or] at hw
    cases q with
    | nil => simp [after?, Ne.symm hw.1]
    | cons c q =>
      simp only [List.cons_append, after?]
      split
      · exact ih hw.2 q
      · rfl

theorem any_afterWord?_line (h : trimLeft v = trimLeft v') (q : List Char) :
    (afterWord? "readonly" (q ++ '\n' :: v)).any (fun r => (head? r).isSome)
      = (afterWord? "readonly" (q ++ '\n' :: v')).any fun r => (head? r).isSome := by
  unfold afterWord?
  rw [after?_line (by decide), after?_line (by decide)]
  cases after? "readonly".toList q with
  | none => rfl
  | some y =>
    cases y with
    | nil => simp [h, isBlank]
    | cons e y =>
      simp only [Option.map_some, List.cons_append]
      split
      · by_cases hy : trimLeft y = []
        · rw [trimLeft_line h hy]
        · rw [trimLeft_append_of_ne_nil hy, trimLeft_append_of_ne_nil hy]
          exact isSome_head?_line h _
      · rfl

theorem looks_line (h : trimLeft v = trimLeft v') (q : List Char) :
    looks (q ++ '\n' :: v) = looks (q ++ '\n' :: v') := by
  unfold looks
  by_cases hq : trimLeft q = []
  · rw [trimLeft_line h hq]
  · rw [trimLeft_append_of_ne_nil hq, trimLeft_append_of_ne_nil hq, isSome_memberHead?_eq,
      isSome_memberHead?_eq, any_afterWord?_line h, isSome_head?_line h]

/-! Blanks behind a line feed go to one segment. -/

namespace Scan

variable {A B P Q : List Char} {X Y L L' : List (List Char)}

theorem endsMember_congr {before' : List Char} (h : ':' ∈ before ↔ ':' ∈ before')
    (hl : looks v = looks v') (c : Char) : endsMember before c v = endsMember before' c v' := by
  rw [Bool.eq_iff_iff, endsMember_iff, endsMember_iff, h, hl]

/-- Where the first segment ends depends on a colon before it only. -/
theorem exists_segments (s : Scan) (before body : List Char) : ∃ Q Y, ∀ before',
    (':' ∈ before' ↔ ':' ∈ before) → s.segments before' body = (before'.reverse ++ Q) :: Y := by
  induction body generalizing s before with
  | nil => exact ⟨[], [], fun before' _ => by rw [segments_nil, List.append_nil]⟩
  | cons c r ih =>
    by_cases hc : (s.step c).depth = 0 ∧ endsMember before c r = true
    · refine ⟨[], (s.step c).segments [] r, fun before' h => ?_⟩
      have he : endsMember before' c r = true := by rw [endsMember_congr h rfl, hc.2]
      rw [segments_cons_end hc.1 he, List.append_nil]
    · obtain ⟨Q, Y, hQ⟩ := ih (s.step c) (c :: before)
      refine ⟨c :: Q, Y, fun before' h => ?_⟩
      rw [← endsMember_congr h rfl] at hc
      rw [segments_cons hc, hQ (c :: before') (by simp [h])]
      simp

theorem passes_of_allBlank (hw : AllBlank w)
    (h : ¬ (s.depth = 0 ∧ ':' ∈ before ∧ looks v = true)) : Passes v s before w := by
  induction w generalizing before with
  | nil => trivial
  | cons c w ih =>
    have hc := hw c (List.mem_cons_self ..)
    have hw' : AllBlank w := fun d hd => hw d (List.mem_cons_of_mem c hd)
    have hcolon : ':' ≠ c := by
      rintro rfl
      cases hc
    refine ⟨?_, ?_⟩
    · rintro ⟨hd, he⟩
      rw [step_of_isBlank s hc] at hd
      rcases endsMember_iff.mp he with hm | ⟨-, hm, hl⟩
      · simp only [isMark, Bool.or_eq_true, decide_eq_true_eq] at hm
        rcases hm with rfl | rfl <;> cases hc
      · rw [looks, trimLeft_append hw'] at hl
        exact h ⟨hd, hm, hl⟩
    · rw [step_of_isBlank s hc]
      apply ih hw'
      simpa [hcolon] using h

/-- A line feed ends a segment or is in one. Blanks behind it go to the start of the next, or stay in
the same. -/
theorem segments_insert_line (hw : AllBlank w) (s : Scan) (before B : List Char) :
    ∃ X P Q Y, s.segments before ('\n' :: B) = X ++ (P ++ Q) :: Y ∧
      s.segments before ('\n' :: (w ++ B)) = X ++ (P ++ (w ++ Q)) :: Y ∧
      (X.flatten ++ P).filter (!isBlank ·) = before.reverse.filter (!isBlank ·) := by
  have hlooks : looks (w ++ B) = looks B := by rw [looks, trimLeft_append hw B, looks]
  have hwcolon : ':' ∉ w := hw.not_mem (by rfl)
  by_cases hc : (s.step '\n').depth = 0 ∧ endsMember before '\n' B = true
  · -- blanks that start a member end none
    obtain ⟨Q, Y, hQ⟩ := exists_segments (s.step '\n') [] B
    have he : endsMember before '\n' (w ++ B) = true := by
      rw [endsMember_congr Iff.rfl hlooks, hc.2]
    have hp : Passes B (s.step '\n') [] w := passes_of_allBlank hw (by simp)
    refine ⟨[before.reverse], [], Q, Y, ?_, ?_, by simp⟩
    · rw [segments_cons_end hc.1 hc.2, hQ [] Iff.rfl]
      rfl
    · rw [segments_cons_end hc.1 he, segments_append hp, run_of_allBlank _ hw,
        hQ (w.reverse ++ []) (by simp [hwcolon])]
      simp
  · obtain ⟨Q, Y, hQ⟩ := exists_segments (s.step '\n') ('\n' :: before) B
    have hc' : ¬ ((s.step '\n').depth = 0 ∧ endsMember before '\n' (w ++ B) = true) := by
      rwa [endsMember_congr Iff.rfl hlooks]
    have hp : Passes B (s.step '\n') ('\n' :: before) w := by
      apply passes_of_allBlank hw
      rintro ⟨hd, hm, hl⟩
      have hm' : ':' ∈ before := by simpa using hm
      exact hc ⟨hd, endsMember_iff.mpr (Or.inr ⟨rfl, hm', hl⟩)⟩
    refine ⟨[], ('\n' :: before).reverse, Q, Y, ?_, ?_, by simp [isBlank]⟩
    · rw [segments_cons hc, hQ _ Iff.rfl]
      rfl
    · rw [segments_cons hc', segments_append hp, run_of_allBlank _ hw,
        hQ (w.reverse ++ '\n' :: before) (by simp [hwcolon])]
      simp

/-- A place behind a line feed lies in a segment `P ++ Q`, and blanks put there stand between `P` and
`Q`. Up to there the segments hold what is kept of the text before. -/
theorem segments_insert (hw : AllBlank w) (s : Scan) (before A B : List Char) :
    ∃ X P Q Y, s.segments before (A ++ '\n' :: B) = X ++ (P ++ Q) :: Y ∧
      s.segments before (A ++ '\n' :: (w ++ B)) = X ++ (P ++ (w ++ Q)) :: Y ∧
      (X.flatten ++ P).filter (!isBlank ·) = before.reverse.filter (!isBlank ·) ++ s.kept A := by
  induction A generalizing s before with
  | nil =>
    obtain ⟨X, P, Q, Y, h, h', hkept⟩ := segments_insert_line hw s before B
    exact ⟨X, P, Q, Y, h, h', by rw [hkept]; simp [kept, depths]⟩
  | cons c A ih =>
    have hlook : looks (A ++ '\n' :: (w ++ B)) = looks (A ++ '\n' :: B) :=
      looks_line (trimLeft_append hw B) A
    rw [kept_cons]
    by_cases hc : (s.step c).depth = 0 ∧ endsMember before c (A ++ '\n' :: B) = true
    · obtain ⟨X, P, Q, Y, h, h', hkept⟩ := ih (s.step c) []
      have he : endsMember before c (A ++ '\n' :: (w ++ B)) = true := by
        rw [endsMember_congr Iff.rfl hlook, hc.2]
      refine ⟨before.reverse :: X, P, Q, Y, ?_, ?_, ?_⟩
      · rw [List.cons_append, segments_cons_end hc.1 hc.2, h, List.cons_append]
      · rw [List.cons_append, segments_cons_end hc.1 he, h', List.cons_append]
      · rw [List.flatten_cons, List.append_assoc, List.filter_append, hkept,
          isKept_of_end hc.1 hc.2]
        simp
    · obtain ⟨X, P, Q, Y, h, h', hkept⟩ := ih (s.step c) (c :: before)
      have hc' : ¬ ((s.step c).depth = 0 ∧
          endsMember before c (A ++ '\n' :: (w ++ B)) = true) := by
        rwa [endsMember_congr Iff.rfl hlook]
      refine ⟨X, P, Q, Y, ?_, ?_, ?_⟩
      · rw [List.cons_append, segments_cons hc, h]
      · rw [List.cons_append, segments_cons hc', h']
      · rw [hkept, List.reverse_cons, List.filter_append, List.append_assoc, isKept_of_not_end hc]
        cases hb : isBlank c <;> simp [hb]

/-- If the members can be parted at the place, the segment there is blank on one of its sides: a
segment that is not would be parted nowhere. -/
theorem allBlank_or_allBlank (hm : tidy (X ++ (P ++ Q) :: Y) = L ++ L')
    (hL : (X.flatten ++ P).filter (!isBlank ·) = L.flatten.filter (!isBlank ·)) :
    AllBlank P ∨ AllBlank Q := by
  by_contra hn
  obtain ⟨hP, hQ⟩ := not_or.mp hn
  have hPQ : ¬ AllBlank (P ++ Q) := fun h => hP fun c hc => h c (List.mem_append_left Q hc)
  have hX : X.flatten.filter (!isBlank ·) = (tidy X).flatten.filter (!isBlank ·) :=
    (filter_flatten_tidy X).symm
  rw [List.filter_append, hX] at hL
  rw [tidy_append, tidy_cons hPQ] at hm
  rcases List.append_eq_append_iff.mp hm with ⟨a, rfl, ha⟩ | ⟨a, ha, -⟩
  · rw [List.flatten_append, List.filter_append] at hL
    have hPa := List.append_cancel_left hL
    cases a with
    | nil => exact hP (AllBlank.of_filter (by simpa using hPa))
    | cons t a =>
      obtain ⟨rfl, -⟩ := List.cons.inj ha
      rw [List.flatten_cons, List.filter_append, filter_trim, List.filter_append,
        List.append_assoc] at hPa
      have hnil := List.append_right_eq_self.mp hPa.symm
      exact hQ (AllBlank.of_filter (List.append_eq_nil_iff.mp hnil).1)
  · rw [ha, List.flatten_append, List.filter_append, List.append_assoc] at hL
    have hnil := List.append_right_eq_self.mp hL
    exact hP (AllBlank.of_filter (List.append_eq_nil_iff.mp hnil).2)

theorem tidy_insert (hw : AllBlank w) (h : AllBlank P ∨ AllBlank Q) :
    tidy (X ++ (P ++ (w ++ Q)) :: Y) = tidy (X ++ (P ++ Q) :: Y) := by
  have ht : trim (P ++ (w ++ Q)) = trim (P ++ Q) := by
    rcases h with h | h
    · rw [trim_append_left h, trim_append_left hw, trim_append_left h]
    · rw [trim_append_right (hw.append h), trim_append_right h]
  simp only [tidy, List.map_append, List.map_cons, ht]

end Scan

/-- Blanks at the start of a line between two members do not change the members. -/
theorem splitMembers_insert {A B : List Char} (hw : AllBlank w)
    (h : splitMembers (A ++ '\n' :: B) = splitMembers A ++ splitMembers B) :
    splitMembers (A ++ '\n' :: (w ++ B)) = splitMembers (A ++ '\n' :: B) := by
  obtain ⟨X, P, Q, Y, hseg, hseg', hkept⟩ := Scan.segments_insert hw Scan.start [] A B
  have hL : (splitMembers A).flatten.filter (!isBlank ·) = Scan.start.kept A := by
    rw [splitMembers_eq, filter_flatten_tidy]
    exact filter_flatten_segments Scan.start [] A
  rw [splitMembers_eq, hseg] at h
  rw [splitMembers_eq, splitMembers_eq, hseg, hseg']
  exact Scan.tidy_insert hw (Scan.allBlank_or_allBlank h (hkept.trans hL.symm))

/-! Comments in the text of an alias. -/

/-- A line feed in the body of an alias, with members above and below it: the members of the whole
body are those of both parts. All block comments of the part above end there. -/
structure Gap where
  typeName : String
  exported : Bool
  front : List Char
  above : List Char
  below : List Char
  back : List Char
  isIdentifier : IsIdentifier typeName.toList
  found : search? typeName.toList exported none (front ++ (above ++ '\n' :: (below ++ '}' :: back)))
    = some (above ++ '\n' :: (below ++ '}' :: back))
  closes : Bracket.brace.IsBalanced (above ++ '\n' :: below)
  settled : Settled above
  between : splitMembers (dropComments (above ++ '\n' :: below))
    = splitMembers (dropComments above) ++ splitMembers (dropComments below)

namespace Gap

/-- The text with lines put in at the place. -/
def text (p : Gap) (lines : List Char) : String :=
  String.ofList (p.front ++ (p.above ++ '\n' :: (lines ++ (p.below ++ '}' :: p.back))))

theorem find?_text (p : Gap) {lines : List Char}
    (h : Bracket.brace.IsBalanced (p.above ++ '\n' :: (lines ++ p.below))) :
    find? (p.text lines) p.typeName p.exported = some ⟨p.typeName,
      (splitMembers (dropComments (p.above ++ '\n' :: (lines ++ p.below)))).filterMap member?⟩ := by
  have hs := search?_append p.isIdentifier p.found
    (p.above ++ '\n' :: (lines ++ (p.below ++ '}' :: p.back)))
  have he : p.above ++ '\n' :: (lines ++ (p.below ++ '}' :: p.back))
      = (p.above ++ '\n' :: (lines ++ p.below)) ++ '}' :: p.back := by simp
  rw [find?_eq_bind, text, String.toList_ofList, hs, Option.bind_some, he, read?_of_isBalanced h]

theorem isBalanced_insert (p : Gap) {lines : List Char} (h : Bracket.brace.IsBalanced lines) :
    Bracket.brace.IsBalanced (p.above ++ '\n' :: (lines ++ p.below)) := by
  have hc := p.closes
  rw [Bracket.IsBalanced, Bracket.level_append] at hc ⊢
  rw [← hc]
  congr 1
  funext m
  exact h.level_append m p.below

end Gap

/-- A comment that cannot be taken for anything else: its braces are balanced, and no block comment
that starts in it goes on behind it. -/
structure Comment.IsHarmless (c : Comment) : Prop where
  braces : Bracket.brace.IsBalanced c.text
  settled : Settled c.text

/-- A harmless comment on a line of its own between the members of an alias changes none of them. -/
theorem find?_comment_line (p : Gap) {c : Comment} (hc : c.IsHarmless) {indent : List Char}
    (hi : AllBlank indent) :
    ∃ t, find? (p.text []) p.typeName p.exported = some t ∧
      find? (p.text (indent ++ (c.text ++ ['\n']))) p.typeName p.exported = some t := by
  have hblank : Bracket.brace.IsBalanced indent :=
    Bracket.isBalanced_of_not_mem (hi.not_mem (by rfl)) (hi.not_mem (by rfl))
  have hlines : Bracket.brace.IsBalanced (indent ++ (c.text ++ ['\n'])) :=
    hblank.append (hc.braces.append rfl)
  have hdrop : dropComments (p.above ++ '\n' :: (indent ++ (c.text ++ ['\n']) ++ p.below))
      = dropComments p.above ++ '\n' :: ((indent ++ ['\n']) ++ dropComments p.below) := by
    have he : indent ++ (c.text ++ ['\n']) ++ p.below = (indent ++ c.text) ++ '\n' :: p.below := by
      simp
    rw [he, p.settled.dropComments_append, (hc.settled.append_left hi).dropComments_append,
      dropComments_append_left hi, c.dropComments_text]
    simp
  have hbetween := p.between
  rw [p.settled.dropComments_append] at hbetween
  have hmembers := splitMembers_insert (hi.append (show AllBlank ['\n'] by decide)) hbetween
  refine ⟨_, p.find?_text p.closes, ?_⟩
  rw [p.find?_text (p.isBalanced_insert hlines), hdrop, hmembers, List.nil_append,
    p.settled.dropComments_append]

/-- The end of a line whose member has no mark, and which has a comment itself. -/
def pageGap : Gap where
  typeName := "T"
  exported := false
  front := "type T = \x7b".toList
  above := "\n/* a */ db: typeof x".toList
  below := "page?: \x7b a: A; b: B \x7d\n".toList
  back := ['\n']
  isIdentifier := ⟨by decide, List.all_eq_true.mp (by decide)⟩
  found := by decide +kernel
  closes := by decide +kernel
  settled := Settled.append_left (b := ['\n']) (by decide)
    (.comment (t := [' ', 'a', ' ']) (by decide) (settled_of_free (by decide +kernel)))
  between := by decide +kernel

def braceNote : Comment := .line ['\x7b', 'a', '\x7d', '*', '/'] (by decide)

theorem find?_pageGap : braceNote.IsHarmless ∧ AllBlank [' ', ' '] ∧
    pageGap.text ([' ', ' '] ++ (braceNote.text ++ ['\n'])) =
      "type T = \x7b\n/* a */ db: typeof x\n  // \x7ba\x7d*/\npage?: \x7b a: A; b: B \x7d\n\x7d\n" ∧
    ∃ t, find? (pageGap.text []) "T" false = some t ∧
      find? (pageGap.text ([' ', ' '] ++ (braceNote.text ++ ['\n']))) "T" false = some t := by
  have hb : AllBlank [' ', ' '] := by decide
  have hn : braceNote.IsHarmless := ⟨by decide +kernel, settled_of_free (by decide +kernel)⟩
  exact ⟨hn, hb, by decide +kernel, find?_comment_line pageGap hn hb⟩

/-- A closing brace in a comment closes the alias. A block comment that starts in a line comment ends
with the next one. And a comment behind a member without a mark, in front of something that is not
read as a member, becomes part of a type. -/
theorem find?_comment_differs :
    (find? "export type TPortal = \x7b\n  db: typeof booksDb;\n\x7d;\n" "TPortal" true
        = some ⟨"TPortal", [⟨"db", "typeof booksDb", false⟩]⟩ ∧
      find? "export type TPortal = \x7b\n  // \x7d\n  db: typeof booksDb;\n\x7d;\n" "TPortal" true
        = some ⟨"TPortal", []⟩) ∧
    (find? "type T = \x7b\na: A\n/* b */\n\x7d" "T" false = some ⟨"T", [⟨"a", "A", false⟩]⟩ ∧
      find? "type T = \x7b\n// c/*\na: A\n/* b */\n\x7d" "T" false = some ⟨"T", []⟩) ∧
    find? "type T = \x7b\na: A\n[b]: B\n\x7d" "T" false = some ⟨"T", [⟨"a", "A\n[b]: B", false⟩]⟩ ∧
    find? "type T = \x7b\na: A\n// c\n[b]: B\n\x7d" "T" false
      = some ⟨"T", [⟨"a", "A\n\n[b]: B", false⟩]⟩ := by
  decide +kernel

end ConventionLint.ObjectType
