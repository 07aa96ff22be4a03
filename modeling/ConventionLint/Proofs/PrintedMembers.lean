import ConventionLint.Proofs.AliasSearch
import ConventionLint.Proofs.Balance
import ConventionLint.Proofs.Members
import ConventionLint.Proofs.TypeComments

/-! Members as they are written in an object type. A body that is written from its members is split
into them again, and each is read back as it was. -/
namespace ConventionLint.ObjectType

open Text

variable {s s' : Scan} {before cs lead n t u v w : List Char} {c d : Char}

/-- No mark and no line feed stands outside of all brackets. -/
def Scan.IsSolid (s : Scan) (u : List Char) : Prop :=
  ∀ p ∈ s.depths u, p.2 = 0 → p.1 ≠ ';' ∧ p.1 ≠ ',' ∧ p.1 ≠ '\n'

instance (s : Scan) (u : List Char) : Decidable (s.IsSolid u) :=
  decidable_of_iff ((s.depths u).all fun p =>
      decide (p.2 = 0 → p.1 ≠ ';' ∧ p.1 ≠ ',' ∧ p.1 ≠ '\n'))
    (by simp only [Scan.IsSolid, List.all_eq_true, decide_eq_true_eq])

/-- No comment starts in the text. -/
structure IsFree (u : List Char) : Prop where
  line : ¬ ['/', '/'] <:+: u
  block : ¬ ['/', '*'] <:+: u

instance (u : List Char) : Decidable (IsFree u) :=
  decidable_of_iff (¬ ['/', '/'] <:+: u ∧ ¬ ['/', '*'] <:+: u)
    ⟨fun h => ⟨h.1, h.2⟩, fun h => ⟨h.line, h.block⟩⟩

/-- A name: a letter, an underscore or a dollar sign, and more characters of names. -/
structure IsName (n : List Char) : Prop where
  start : n.head?.any isNameStart = true
  chars : n.all isNameChar = true

instance (n : List Char) : Decidable (IsName n) :=
  decidable_of_iff (n.head?.any isNameStart = true ∧ n.all isNameChar = true)
    ⟨fun h => ⟨h.1, h.2⟩, fun h => ⟨h.start, h.chars⟩⟩

/-- The text of a type, which a scan of the member it stands in passes over. The word `type` in front
of a blank, as in a declaration, stands nowhere in it. -/
structure IsType (t : List Char) : Prop where
  ne_nil : t ≠ []
  trimmed : trim t = t
  braces : Bracket.brace.IsBalanced t
  closed : (Scan.start.run t).depth = 0
  solid : Scan.start.IsSolid t
  free : IsFree t
  noDeclaration : t.tails.all (fun s => (afterWord? "type" s).isNone) = true

instance (t : List Char) : Decidable (IsType t) :=
  decidable_of_iff (t ≠ [] ∧ trim t = t ∧ Bracket.brace.IsBalanced t ∧ (Scan.start.run t).depth = 0 ∧
      Scan.start.IsSolid t ∧ IsFree t ∧ t.tails.all (fun s => (afterWord? "type" s).isNone) = true)
    ⟨fun ⟨hn, ht, hb, hc, hs, hf, hd⟩ => ⟨hn, ht, hb, hc, hs, hf, hd⟩,
      fun ⟨hn, ht, hb, hc, hs, hf, hd⟩ => ⟨hn, ht, hb, hc, hs, hf, hd⟩⟩

/-- A property with the text that declares it. -/
structure Member extends Property where
  readOnly : Bool := false
  isName : IsName name.toList
  isType : IsType typeText.toList

namespace Member

/-- What stands before the type. -/
def front (m : Member) : List Char :=
  (if m.readOnly then "readonly ".toList else []) ++
    (m.name.toList ++ ((if m.optional then ['?'] else []) ++ [':', ' ']))

/-- The text `[readonly ]name[?]: type`. -/
def text (m : Member) : List Char := m.front ++ m.typeText.toList

end Member

/-- Members in front of a closing brace: a semicolon stands between any two, and behind the last one
if it is `marked`. -/
def spread (marked : Bool) : List Member → List Char
  | [] => [' ']
  | m :: l => ' ' :: (m.text ++ if l.isEmpty && !marked then [' '] else ';' :: spread marked l)

/-! Names and types. -/

theorem isNameChar_of_isNameStart (h : isNameStart c = true) : isNameChar c = true := by
  simp only [isNameStart, Bool.or_eq_true, decide_eq_true_eq] at h
  rcases h with (h | rfl) | rfl
  · have hlt : c.toNat < 0x80 := by
      rcases Bool.or_eq_true_iff.mp h with h | h
      · have hz : c.toNat ≤ 90 := (of_decide_eq_true h).2
        omega
      · have hz : c.toNat ≤ 122 := of_decide_eq_true (Bool.and_eq_true_iff.mp h).2
        omega
    simp [isNameChar, isWord, hlt, Char.isAlphanum, h]
  · decide
  · decide

theorem IsName.exists_cons (h : IsName n) :
    ∃ c r, n = c :: r ∧ isNameStart c = true ∧ ∀ d ∈ r, isNameChar d = true := by
  obtain ⟨hs, hc⟩ := h
  cases n with
  | nil => cases hs
  | cons c r => exact ⟨c, r, rfl, hs, fun d hd => List.all_eq_true.mp hc d (List.mem_cons_of_mem c hd)⟩

theorem IsName.isIdentifier (h : IsName n) : IsIdentifier n := by
  obtain ⟨c, r, rfl, -, -⟩ := h.exists_cons
  exact ⟨List.cons_ne_nil c r, List.all_eq_true.mp h.chars⟩

theorem IsIdentifier.not_mem (h : IsIdentifier n) (hc : isNameChar c = false) : c ∉ n := by
  intro hm
  have hn := h.chars c hm
  rw [hc] at hn
  cases hn

theorem IsType.isBare (h : IsType t) : IsBare t := by
  have hn : trim t ≠ [] := by
    rw [h.trimmed]
    exact h.ne_nil
  have hb := isBare_trim hn
  rwa [h.trimmed] at hb

theorem IsType.not_infix (h : IsType t) (hc : isBlank c = true) : ¬ "type".toList ++ [c] <:+: t := by
  rintro ⟨x, y, he⟩
  have hs : "type".toList ++ c :: y <:+ t := ⟨x, by simpa using he⟩
  have hnone := List.all_eq_true.mp h.noDeclaration _ ((List.mem_tails _ _).mpr hs)
  rw [afterWord?_eq_some_iff.mpr ⟨c, y, rfl, hc, rfl⟩] at hnone
  cases hnone

/-! The scan passes over a member. -/

namespace Scan

theorem depths_append (s : Scan) (u v : List Char) :
    s.depths (u ++ v) = s.depths u ++ (s.run u).depths v := by
  induction u generalizing s with
  | nil => rfl
  | cons c u ih => simp only [List.cons_append, depths, ih, run_cons]

theorem IsSolid.append (hu : s.IsSolid u) (hv : (s.run u).IsSolid v) : s.IsSolid (u ++ v) := by
  intro p hp
  rw [depths_append] at hp
  rcases List.mem_append.mp hp with hp | hp
  · exact hu p hp
  · exact hv p hp

theorem IsSolid.passes (h : s.IsSolid u) (v before : List Char) : Passes v s before u := by
  induction u generalizing s before with
  | nil => trivial
  | cons c u ih =>
    refine ⟨?_, ih (fun p hp => h p (List.mem_cons_of_mem _ hp)) _⟩
    rintro ⟨hd, he⟩
    obtain ⟨hs, hc, hl⟩ := h (c, (s.step c).depth) (List.mem_cons_self ..) hd
    rcases endsMember_iff.mp he with hm | ⟨hn, -⟩
    · simp [isMark, hs, hc] at hm
    · exact hl hn

/-- Scans that differ in the character before only, and stand behind no equals sign, go on alike. -/
theorem congr_of_isBare (ht : IsBare t) (hd : s.depth = s'.depth) (hs : s.last ≠ some '=')
    (hs' : s'.last ≠ some '=') : s.depths t = s'.depths t ∧ s.run t = s'.run t := by
  obtain ⟨c, r, rfl, hc⟩ := ht.head
  have hstep : s.step c = s'.step c := step_congr hd hc fun _ => ⟨hs, hs'⟩
  simp only [depths, run_cons, hstep, and_self]

end Scan

/-- Neither a bracket nor an end of a member. -/
def isFlat (c : Char) : Bool := !isOpening c && !isClosing c && !isMark c && c ≠ '\n'

theorem isFlat_or_mem (c : Char) :
    isFlat c = true ∨ c ∈ ['{', '[', '(', '<', '}', ']', ')', '>', ';', ',', '\n'] := by
  by_cases h : c ∈ ['{', '[', '(', '<', '}', ']', ')', '>', ';', ',', '\n']
  · exact Or.inr h
  · left
    simp only [List.mem_cons, List.not_mem_nil, or_false, not_or] at h
    simp [isFlat, isOpening, isClosing, isMark, Bracket.all, Bracket.opening, Bracket.closing, h,
      eq_comm (b := c)]

theorem isFlat_of_isNameChar (h : isNameChar c = true) : isFlat c = true := by
  rcases isFlat_or_mem c with hf | hm
  · exact hf
  · have hall : ['{', '[', '(', '<', '}', ']', ')', '>', ';', ',', '\n'].all (!isNameChar ·) = true := by
      decide
    have hn := List.all_eq_true.mp hall c hm
    simp [h] at hn

theorem Scan.run_of_isFlat (h : ∀ c ∈ u, isFlat c = true) : (s.run u).depth = s.depth := by
  induction u generalizing s with
  | nil => rfl
  | cons c u ih =>
    have hc := h c (List.mem_cons_self ..)
    simp only [isFlat, Bool.and_eq_true, Bool.not_eq_true'] at hc
    rw [run_cons, ih fun d hd => h d (List.mem_cons_of_mem c hd)]
    simp [step, depthAfter, hc.1.1.1, hc.1.1.2]

theorem Scan.isSolid_of_isFlat (h : ∀ c ∈ u, isFlat c = true) : s.IsSolid u := by
  induction u generalizing s with
  | nil =>
    intro p hp
    cases hp
  | cons c u ih =>
    intro p hp hd
    rcases List.mem_cons.mp hp with rfl | hp
    · have hc := h c (List.mem_cons_self ..)
      simp only [isFlat, isMark, Bool.and_eq_true, Bool.not_eq_true', Bool.or_eq_false_iff,
        decide_eq_false_iff_not, decide_eq_true_eq] at hc
      exact ⟨hc.1.2.1, hc.1.2.2, hc.2⟩
    · exact ih (fun d hd => h d (List.mem_cons_of_mem c hd)) p hp hd

namespace Member

theorem mem_front (m : Member) (h : c ∈ m.front) : isNameChar c = true ∨ c ∈ [' ', '?', ':'] := by
  simp only [front, List.mem_append] at h
  rcases h with hc | hc | hc | hc
  · cases hr : m.readOnly with
    | false => simp [hr] at hc
    | true =>
      simp only [hr, if_true] at hc
      have hall : "readonly ".toList.all (fun c => isNameChar c || c = ' ') = true := by decide
      rcases Bool.or_eq_true_iff.mp (List.all_eq_true.mp hall c hc) with hn | hn
      · exact Or.inl hn
      · exact Or.inr (by simp [of_decide_eq_true hn])
  · exact Or.inl (m.isName.isIdentifier.chars c hc)
  · cases ho : m.optional with
    | false => simp [ho] at hc
    | true =>
      simp only [ho, if_true, List.mem_singleton] at hc
      exact Or.inr (by simp [hc])
  · simp only [List.mem_cons, List.not_mem_nil, or_false] at hc ⊢
    rcases hc with hc | hc
    · exact Or.inr (Or.inr (Or.inr hc))
    · exact Or.inr (Or.inl hc)

theorem isFlat_front (m : Member) : ∀ c ∈ m.front, isFlat c = true := by
  intro c hc
  rcases m.mem_front hc with hn | hm
  · exact isFlat_of_isNameChar hn
  · exact List.all_eq_true.mp (by decide : [' ', '?', ':'].all isFlat = true) c hm

theorem run_front (m : Member) (hs : s.depth = 0) :
    (s.run m.front).depth = 0 ∧ (s.run m.front).last = some ':' := by
  refine ⟨(Scan.run_of_isFlat m.isFlat_front).trans hs, ?_⟩
  rw [front, Scan.run_append, Scan.run_append, Scan.run_append]
  rfl

/-- A member is passed over at depth 0, whatever stands around it. -/
theorem isSolid_text (m : Member) (hs : s.depth = 0) :
    s.IsSolid m.text ∧ (s.run m.text).depth = 0 := by
  obtain ⟨hdepth, hlast⟩ := m.run_front hs
  have hl : (s.run m.front).last ≠ some '=' := by
    rw [hlast]
    decide
  have hl' : Scan.start.last ≠ some '=' := by simp [Scan.start]
  obtain ⟨hdepths, hrun⟩ := Scan.congr_of_isBare m.isType.isBare hdepth hl hl'
  constructor
  · refine (Scan.isSolid_of_isFlat m.isFlat_front).append ?_
    rw [Scan.IsSolid, hdepths]
    exact m.isType.solid
  · rw [text, Scan.run_append, hrun]
    exact m.isType.closed

theorem isBare_text (m : Member) : IsBare m.text := by
  obtain ⟨r, d, hr, hd⟩ := m.isType.isBare.last
  refine ⟨?_, m.front ++ r, d, by rw [text, hr, List.append_assoc], hd⟩
  obtain ⟨c, x, hx, hc, -⟩ := m.isName.exists_cons
  cases ho : m.readOnly with
  | false =>
    refine ⟨c, _, by simp [text, front, ho, hx]; rfl, ?_⟩
    apply m.isName.isIdentifier.not_isBlank
    rw [hx]
    exact List.mem_cons_self ..
  | true => exact ⟨'r', _, by simp [text, front, ho]; rfl, by decide⟩

end Member

variable {marked : Bool}

theorem segments_blank (s : Scan) (lead v : List Char) :
    s.segments lead (' ' :: v) = s.segments (' ' :: lead) v := by
  have h : ¬ ((s.step ' ').depth = 0 ∧ endsMember lead ' ' v = true) := by
    rintro ⟨-, he⟩
    rcases endsMember_iff.mp he with hm | ⟨hm, -⟩ <;> cases hm
  rw [Scan.segments_cons h, Scan.step_of_isBlank s (by rfl)]

/-- The members are cut apart again, at any place outside of all brackets. -/
theorem tidy_segments_spread (hs : s.depth = 0) (hl : AllBlank lead) (l : List Member) :
    tidy (s.segments lead (spread marked l)) = l.map Member.text := by
  have hblank : ∀ {b : List Char}, AllBlank b → AllBlank (' ' :: b) := by
    intro b hb
    exact AllBlank.append (b := [' ']) (by decide) hb
  induction l generalizing s lead with
  | nil =>
    rw [spread, segments_blank, Scan.segments_nil]
    exact tidy_cons_of_allBlank (hblank hl).reverse []
  | cons m l ih =>
    obtain ⟨hsolid, hdepth⟩ := m.isSolid_text hs
    rw [spread, segments_blank, Scan.segments_append (hsolid.passes _ _), List.map_cons]
    have hlead : (m.text.reverse ++ ' ' :: lead).reverse = (' ' :: lead).reverse ++ m.text := by simp
    split
    · rename_i hend
      obtain rfl : l = [] := by simpa using (Bool.and_eq_true_iff.mp hend).1
      have htrim : trim (' ' :: (m.text.reverse ++ ' ' :: lead)).reverse = m.text := by
        rw [List.reverse_cons, hlead, List.append_assoc]
        exact trim_of_isBare (hblank hl).reverse m.isBare_text (by decide)
      rw [segments_blank, Scan.segments_nil, tidy, List.map_cons, htrim]
      simp [m.isBare_text.ne_nil]
    · have hmark : (((s.run m.text).step ';').depth) = 0 := hdepth
      rw [Scan.segments_cons_end hmark (endsMember_iff.mpr (Or.inl rfl)), hlead,
        tidy_cons_bare (hblank hl).reverse m.isBare_text, ih hmark allBlank_nil]

theorem splitMembers_spread (marked : Bool) (l : List Member) :
    splitMembers (spread marked l) = l.map Member.text := by
  rw [splitMembers_eq]
  exact tidy_segments_spread rfl allBlank_nil l

/-! A written body has balanced braces and no comments. -/

theorem isBalanced_of_isFlat (h : ∀ c ∈ u, isFlat c = true) : Bracket.brace.IsBalanced u := by
  apply Bracket.isBalanced_of_not_mem
  · intro hm
    exact absurd (h _ hm) (by decide)
  · intro hm
    exact absurd (h _ hm) (by decide)

theorem isBalanced_spread (marked : Bool) (l : List Member) :
    Bracket.brace.IsBalanced (spread marked l) := by
  induction l with
  | nil => rfl
  | cons m l ih =>
    have hm : Bracket.brace.IsBalanced (' ' :: m.text) :=
      Bracket.IsBalanced.append (u := [' ']) (by decide)
        ((isBalanced_of_isFlat m.isFlat_front).append m.isType.braces)
    rw [spread, ← List.cons_append]
    refine hm.append ?_
    split
    · decide
    · exact Bracket.IsBalanced.append (u := [';']) (by decide) ih

theorem IsFree.append (hu : IsFree u) (hv : IsFree v)
    (h : u.getLast? ≠ some '/' ∨ v.head? ≠ some '/' ∧ v.head? ≠ some '*') : IsFree (u ++ v) := by
  refine ⟨not_infix_append hu.line hv.line ?_, not_infix_append hu.block hv.block ?_⟩
  · exact h.imp_right And.left
  · exact h.imp_right And.right

theorem isFree_of_not_mem (h : '/' ∉ u) : IsFree u := by
  refine ⟨fun hi => h ?_, fun hi => h ?_⟩ <;> exact hi.subset (List.mem_cons_self ..)

theorem isFree_spread (marked : Bool) (l : List Member) : IsFree (spread marked l) := by
  induction l with
  | nil => exact isFree_of_not_mem (by simp [spread])
  | cons m l ih =>
    have hfront : '/' ∉ ' ' :: m.front := by
      intro hm
      rcases List.mem_cons.mp hm with hm | hm
      · cases hm
      · rcases m.mem_front hm with hn | hm
        · exact absurd hn (by decide)
        · exact absurd hm (by decide)
    have hm : IsFree (' ' :: m.front ++ m.typeText.toList) := by
      refine (isFree_of_not_mem hfront).append m.isType.free (Or.inl fun hlast => hfront ?_)
      exact List.mem_of_getLast? hlast
    rw [spread, Member.text, ← List.cons_append, ← List.cons_append]
    refine hm.append ?_ ?_
    · split
      · exact isFree_of_not_mem (by decide)
      · exact IsFree.append (u := [';']) (isFree_of_not_mem (by decide)) ih (Or.inl (by decide))
    · right
      split <;> simp

theorem dropComments_spread (marked : Bool) (l : List Member) :
    dropComments (spread marked l) = spread marked l :=
  dropComments_of_free (isFree_spread marked l).line (isFree_spread marked l).block

/-! Each member is read back. -/

theorem trimBoth_of_none {p : Char → Bool} (h : ∀ c ∈ cs, p c = false) : trimBoth p cs = cs := by
  have hd : ∀ {l : List Char}, (∀ c ∈ l, p c = false) → l.dropWhile p = l := by
    intro l hl
    cases l with
    | nil => rfl
    | cons c r => simp [hl c (List.mem_cons_self ..)]
  rw [trimBoth, hd h, hd fun c hc => h c (List.mem_reverse.mp hc), List.reverse_reverse]

theorem key?_append (h : IsName n) (hv : v.head?.any isNameChar = false) :
    key? (n ++ v) = some (n, v) := by
  obtain ⟨c, r, rfl, hc, hr⟩ := h.exists_cons
  have htake : v.takeWhile isNameChar = [] ∧ v.dropWhile isNameChar = v := by
    cases v with
    | nil => exact ⟨rfl, rfl⟩
    | cons d v =>
      have hd : isNameChar d = false := hv
      simp [hd]
  rw [List.cons_append, key?, if_pos hc, List.takeWhile_append_of_pos hr,
    List.dropWhile_append_of_pos hr, htake.1, htake.2, List.append_nil]

/-- The question mark, the colon and what follows. -/
theorem head?_append (h : IsName n) (optional : Bool) (v : List Char) :
    head? (n ++ ((if optional then ['?'] else []) ++ ':' :: v)) = some (n, optional, v) := by
  have hcolon : trimLeft (':' :: v) = ':' :: v := trimLeft_cons (by rfl) v
  cases optional with
  | true =>
    have hk := key?_append h (v := '?' :: ':' :: v) (by rfl)
    simp [head?, hk, hcolon]
  | false =>
    have hk := key?_append h (v := ':' :: v) (by rfl)
    simp [head?, hk, hcolon]

/-- Texts that go on with a character of another kind are compared up to it. -/
theorem append_cons_inj {p : Char → Bool} {x y : List Char} (hu : ∀ a ∈ u, p a = true)
    (hv : ∀ a ∈ v, p a = true) (hc : p c = false) (hd : p d = false)
    (h : u ++ c :: x = v ++ d :: y) : u = v ∧ c = d ∧ x = y := by
  have ht := congrArg (List.takeWhile p) h
  rw [List.takeWhile_append_of_pos hu, List.takeWhile_append_of_pos hv, List.takeWhile_cons_of_neg,
    List.takeWhile_cons_of_neg, List.append_nil, List.append_nil] at ht
  · subst ht
    simpa using h
  · simp [hd]
  · simp [hc]

theorem memberHead?_text (m : Member) :
    memberHead? m.text = some (m.name.toList, m.optional, ' ' :: m.typeText.toList) := by
  have hhead := head?_append m.isName m.optional (' ' :: m.typeText.toList)
  cases hr : m.readOnly with
  | true =>
    have ht : m.text = "readonly".toList ++ ' ' ::
        (m.name.toList ++ ((if m.optional then ['?'] else []) ++ ':' :: ' ' :: m.typeText.toList)) := by
      simp [Member.text, Member.front, hr]
    have hword := afterWord?_eq_some_iff.mpr ⟨' ', _, ht, by rfl, rfl⟩
    rw [m.isName.isIdentifier.trimLeft_append] at hword
    rw [memberHead?, hword, Option.bind_some, hhead]
    rfl
  | false =>
    have ht : m.text = m.name.toList ++
        ((if m.optional then ['?'] else []) ++ ':' :: ' ' :: m.typeText.toList) := by
      simp [Member.text, Member.front, hr]
    have hword : afterWord? "readonly" m.text = none := by
      rw [Option.eq_none_iff_forall_ne_some]
      intro x hx
      obtain ⟨e, y, he, hb, -⟩ := afterWord?_eq_some_iff.mp hx
      -- a name in front of the colon is not followed by a blank
      have hstop : ∃ d z, (if m.optional then ['?'] else []) ++ ':' :: ' ' :: m.typeText.toList = d :: z ∧
          isNameChar d = false ∧ isBlank d = false := by
        cases m.optional with
        | true => exact ⟨'?', _, rfl, by decide, by decide⟩
        | false => exact ⟨':', _, rfl, by decide, by decide⟩
      obtain ⟨d, z, hz, hd, hd'⟩ := hstop
      rw [ht, hz] at he
      obtain ⟨-, rfl, -⟩ := append_cons_inj m.isName.isIdentifier.chars
        (List.all_eq_true.mp (by decide : "readonly".toList.all isNameChar = true)) hd
        (isNameChar_of_isBlank hb) he
      rw [hd'] at hb
      cases hb
    rw [memberHead?, hword, ht, hhead]
    rfl

theorem member?_text (m : Member) : member? m.text = some m.toProperty := by
  have hname : trimBoth (fun c => c = '\'' || c = '"') m.name.toList = m.name.toList := by
    apply trimBoth_of_none
    intro c hc
    apply Bool.eq_false_iff.mpr
    intro hq
    simp only [Bool.or_eq_true, decide_eq_true_eq] at hq
    rcases hq with rfl | rfl
    · exact m.isName.isIdentifier.not_mem (by decide) hc
    · exact m.isName.isIdentifier.not_mem (by decide) hc
  have htype : trim (' ' :: m.typeText.toList) = m.typeText.toList := by
    simpa using trim_of_isBare (b := [' ']) (by decide) m.isType.isBare allBlank_nil
  have hne : m.typeText.toList.isEmpty = false := by simpa using m.isType.ne_nil
  simp only [member?, memberHead?_text, Option.bind_eq_bind, Option.bind_some, htype, hne, hname,
    String.ofList_toList]
  rfl

theorem filterMap_member?_text (l : List Member) :
    (l.map Member.text).filterMap member? = l.map (·.toProperty) := by
  simp [List.filterMap_map, member?_text]

end ConventionLint.ObjectType
