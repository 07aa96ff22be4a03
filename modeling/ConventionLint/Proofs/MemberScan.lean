import ConventionLint.Module.ObjectType
import ConventionLint.Proofs.Blank
import ConventionLint.Proofs.Text

/-! The scan that cuts the body of an object type into members. A body is followed from the end of one
member to the end of the next: between two ends the scan just passes, and what it passed can be
scanned again on its own or with other text around it. -/
namespace ConventionLint.ObjectType

open Text

/-- What the scan of a body knows at a place: how many brackets are open, and the last character
before the place that is not blank. -/
structure Scan where
  depth : Nat
  last : Option Char

/-- Characters that end a member wherever they stand outside of brackets. -/
def isMark (c : Char) : Bool := c = ';' || c = ','

/-- Whether a member starts behind the blanks of a text. -/
def looks (cs : List Char) : Bool := (memberHead? (trimLeft cs)).isSome

namespace Scan

variable {s s' : Scan} {c : Char} {b before u v w r : List Char}

def start : Scan := ⟨0, none⟩

def step (s : Scan) (c : Char) : Scan :=
  ⟨depthAfter s.depth s.last c, if isBlank c then s.last else some c⟩

def run (s : Scan) (cs : List Char) : Scan := cs.foldl step s

/-- Whether the scan ends no member within a text that `before` precedes, in reverse, and `v`
follows. -/
def Passes (v : List Char) (s : Scan) (before : List Char) : List Char → Prop
  | [] => True
  | c :: u =>
    ¬ ((s.step c).depth = 0 ∧ endsMember before c (u ++ v) = true) ∧
      Passes v (s.step c) (c :: before) u

/-- The segments of a body from a place on, the first of which starts with `before` in reverse. -/
def segments (s : Scan) (before body : List Char) : List (List Char) :=
  segmentsFrom s.depth s.last before body

@[simp] theorem run_nil (s : Scan) : s.run [] = s := rfl

@[simp] theorem run_cons (s : Scan) (c : Char) (r : List Char) :
    s.run (c :: r) = (s.step c).run r := rfl

theorem run_append (s : Scan) (u v : List Char) : s.run (u ++ v) = (s.run u).run v :=
  List.foldl_append

theorem segments_nil (s : Scan) (before : List Char) : s.segments before [] = [before.reverse] := rfl

theorem segments_cons_end (hd : (s.step c).depth = 0) (he : endsMember before c r = true) :
    s.segments before (c :: r) = before.reverse :: (s.step c).segments [] r := by
  have hd' : depthAfter s.depth s.last c = 0 := hd
  simp [segments, segmentsFrom, step, hd', he]

theorem segments_cons (h : ¬ ((s.step c).depth = 0 ∧ endsMember before c r = true)) :
    s.segments before (c :: r) = (s.step c).segments (c :: before) r := by
  have h' : ¬ (depthAfter s.depth s.last c = 0 ∧ endsMember before c r = true) := h
  simp [segments, segmentsFrom, step, h']

/-- What is passed goes to the segment at hand. -/
theorem segments_append (h : Passes v s before u) :
    s.segments before (u ++ v) = (s.run u).segments (u.reverse ++ before) v := by
  induction u generalizing s before with
  | nil => rfl
  | cons c u ih =>
    obtain ⟨hc, hu⟩ := h
    rw [List.cons_append, segments_cons hc, ih hu, List.reverse_cons, List.append_assoc]
    rfl

theorem passes_append : Passes v s before (u ++ w) ↔
    Passes (w ++ v) s before u ∧ Passes v (s.run u) (u.reverse ++ before) w := by
  induction u generalizing s before with
  | nil => simp [Passes]
  | cons c u ih =>
    simp only [List.cons_append, Passes, ih, List.append_assoc, List.reverse_cons, run_cons,
      List.nil_append, and_assoc]

/-! Blanks leave the scan as it is. -/

theorem isOpening_of_isBlank (h : isBlank c = true) : isOpening c = false := by
  apply Bool.eq_false_iff.mpr
  intro ho
  simp only [isOpening, Bracket.all, List.any_cons, List.any_nil, Bool.or_false, Bool.or_eq_true,
    decide_eq_true_eq] at ho
  rcases ho with rfl | rfl | rfl | rfl <;> cases h

theorem isClosing_of_isBlank (h : isBlank c = true) : isClosing c = false := by
  apply Bool.eq_false_iff.mpr
  intro hc
  simp only [isClosing, Bracket.all, List.any_cons, List.any_nil, Bool.or_false, Bool.or_eq_true,
    decide_eq_true_eq] at hc
  rcases hc with rfl | rfl | rfl | rfl <;> cases h

theorem step_of_isBlank (s : Scan) (h : isBlank c = true) : s.step c = s := by
  simp [step, depthAfter, isOpening_of_isBlank h, isClosing_of_isBlank h, h]

theorem run_of_allBlank (s : Scan) (h : AllBlank b) : s.run b = s := by
  induction b generalizing s with
  | nil => rfl
  | cons c b ih =>
    rw [run_cons, step_of_isBlank s (h c (List.mem_cons_self ..))]
    exact ih s fun d hd => h d (List.mem_cons_of_mem c hd)

/-- The character before matters for the end of an arrow only. -/
theorem step_congr (hd : s.depth = s'.depth) (hb : isBlank c = false)
    (hl : c = '>' → s.last ≠ some '=' ∧ s'.last ≠ some '=') : s.step c = s'.step c := by
  by_cases hc : c = '>'
  · obtain ⟨h, h'⟩ := hl hc
    simp [step, depthAfter, hd, hb, h, h']
  · simp [step, depthAfter, hd, hb, hc]

end Scan

/-! What the scan looks ahead for. A quoted key may reach far into what follows. -/

variable {cs q r v x z z' : List Char} {c k : Char}

theorem endsMember_iff {before : List Char} : endsMember before c r = true ↔
    isMark c = true ∨ (c = '\n' ∧ ':' ∈ before ∧ looks r = true) := by
  simp [endsMember, isMark, looks, and_assoc]

/-- Whether a colon follows, which a question mark and blanks may precede. -/
def colonFollows (r : List Char) : Bool :=
  (trimLeft (if r.head? = some '?' then r.tail else r)).head? = some ':'

def isQuote (c : Char) : Bool := c = '\'' || c = '"'

/-- Whether a quoted key ends at the first quote `k`, with a colon behind it. -/
def quoteLooks (k : Char) (cs : List Char) : Bool :=
  match cs.dropWhile (· ≠ k) with
  | [] => false
  | _ :: r => colonFollows r

/-- A text that goes on with a semicolon, if it goes on. -/
def Stops (z : List Char) : Prop := z = [] ∨ ∃ r, z = ';' :: r

theorem head?_trimLeft_append (h : (trimLeft x).head? = some c) (z : List Char) :
    (trimLeft (x ++ z)).head? = some c := by
  have hn : trimLeft x ≠ [] := by
    intro hn
    rw [hn] at h
    cases h
  rw [trimLeft_append_of_ne_nil hn, List.head?_append, h]
  rfl

theorem Stops.trimLeft_eq (hz : Stops z) : trimLeft z = z := by
  obtain rfl | ⟨r, rfl⟩ := hz
  · rfl
  · exact trimLeft_cons (by rfl) r

theorem Stops.head?_ne (hz : Stops z) (hc : c ≠ ';') : z.head? ≠ some c := by
  obtain rfl | ⟨r, rfl⟩ := hz
  · simp
  · simp [Ne.symm hc]

theorem Stops.head?_trimLeft (hz : Stops z) (hc : c ≠ ';')
    (h : (trimLeft (x ++ z)).head? = some c) : (trimLeft x).head? = some c := by
  by_cases hn : trimLeft x = []
  · rw [trimLeft_append (trimLeft_eq_nil_iff.mp hn), hz.trimLeft_eq] at h
    exact (hz.head?_ne hc h).elim
  · rw [trimLeft_append_of_ne_nil hn] at h
    obtain ⟨d, y, hy⟩ := List.exists_cons_of_ne_nil hn
    rw [hy] at h ⊢
    exact h

theorem colonFollows_append (h : colonFollows x = true) (z : List Char) :
    colonFollows (x ++ z) = true := by
  cases x with
  | nil => cases h
  | cons c x =>
    by_cases hc : c = '?'
    · subst hc
      simp only [colonFollows, List.head?_cons, if_true, List.tail_cons, decide_eq_true_eq,
        List.cons_append] at h ⊢
      exact head?_trimLeft_append h z
    · simp only [colonFollows, List.head?_cons, Option.some.injEq, hc, if_false, decide_eq_true_eq,
        List.cons_append] at h ⊢
      exact head?_trimLeft_append h z

theorem Stops.colonFollows (hz : Stops z) (h : colonFollows (x ++ z) = true) :
    ObjectType.colonFollows x = true := by
  cases x with
  | nil =>
    obtain rfl | ⟨r, rfl⟩ := hz
    · exact h
    · simp [ObjectType.colonFollows, trimLeft_cons (show isBlank ';' = false from rfl)] at h
  | cons c x =>
    by_cases hc : c = '?'
    · subst hc
      simp only [ObjectType.colonFollows, List.head?_cons, if_true, List.tail_cons,
        decide_eq_true_eq, List.cons_append] at h ⊢
      exact hz.head?_trimLeft (by decide) h
    · simp only [ObjectType.colonFollows, List.head?_cons, Option.some.injEq, hc, if_false,
        decide_eq_true_eq, List.cons_append] at h ⊢
      exact hz.head?_trimLeft (c := ':') (by decide) h

theorem isSome_head? : (head? cs).isSome = (key? cs).any fun p => colonFollows p.2 := by
  unfold head? colonFollows
  cases key? cs with
  | none => rfl
  | some p =>
    obtain ⟨key, r⟩ := p
    simp only [Option.bind_eq_bind, Option.bind_some, Option.any_some]
    generalize trimLeft (if r.head? = some '?' then r.tail else r) = y
    cases y with
    | nil => rfl
    | cons c y => by_cases hc : c = ':' <;> simp_all

theorem not_isNameStart_of_isQuote (hk : isQuote k = true) : isNameStart k = false := by
  simp only [isQuote, Bool.or_eq_true, decide_eq_true_eq] at hk
  rcases hk with rfl | rfl <;> rfl

theorem isSome_head?_quote (hk : isQuote k = true) (x : List Char) :
    (head? (k :: x)).isSome = quoteLooks k x := by
  have hq : (k = '\'' || k = '"') = true := hk
  rw [isSome_head?, key?, not_isNameStart_of_isQuote hk, quoteLooks]
  simp only [Bool.false_eq_true, if_false, hq, if_true]
  cases x.dropWhile (· ≠ k) <;> rfl

theorem isSome_head?_name (hc : isNameStart c = true) (x : List Char) :
    (head? (c :: x)).isSome = colonFollows (x.dropWhile isNameChar) := by
  rw [isSome_head?, key?, hc]
  rfl

theorem head?_eq_none (hn : isNameStart c = false) (hk : isQuote c = false) (x : List Char) :
    head? (c :: x) = none := by
  have hq : (c = '\'' || c = '"') = false := hk
  rw [head?, key?, hn, hq]
  rfl

theorem quoteLooks_append (hk : k ∉ x) (z : List Char) : quoteLooks k (x ++ z) = quoteLooks k z := by
  have hd : (x ++ z).dropWhile (· ≠ k) = z.dropWhile (· ≠ k) := by
    apply List.dropWhile_append_of_pos
    intro c hc
    have hn : c ≠ k := by
      rintro rfl
      exact hk hc
    simpa using hn
  rw [quoteLooks, hd, quoteLooks]

theorem quoteLooks_at (hk : k ∉ x) (z : List Char) :
    quoteLooks k (x ++ k :: z) = colonFollows z := by
  rw [quoteLooks_append hk, quoteLooks, List.dropWhile_cons_of_neg (by simp)]

/-- Whatever starts a member in front of `z'` starts one in front of `z` too. -/
structure Leads (z' z : List Char) : Prop where
  stops : Stops z'
  quotes : ∀ k, isQuote k = true → quoteLooks k z' = true → quoteLooks k z = true

theorem leads_nil (z : List Char) : Leads [] z :=
  ⟨Or.inl rfl, fun _ _ h => by cases h⟩

theorem Stops.dropWhile_isNameChar (hz : Stops z) : z.dropWhile isNameChar = z := by
  obtain rfl | ⟨r, rfl⟩ := hz
  · rfl
  · exact List.dropWhile_cons_of_neg (by decide)

theorem Stops.head?_eq_none (hz : Stops z) : head? z = none := by
  obtain rfl | ⟨r, rfl⟩ := hz
  · rfl
  · exact ObjectType.head?_eq_none rfl rfl r

theorem Leads.head? (hl : Leads z' z) (h : (head? (q ++ z')).isSome = true) :
    (head? (q ++ z)).isSome = true := by
  cases q with
  | nil =>
    rw [List.nil_append, hl.stops.head?_eq_none] at h
    cases h
  | cons c x =>
    rw [List.cons_append] at h ⊢
    cases hn : isNameStart c with
    | true =>
      rw [isSome_head?_name hn] at h ⊢
      by_cases hx : ∀ d ∈ x, isNameChar d = true
      · -- the name would go on to the semicolon
        rw [List.dropWhile_append_of_pos hx, hl.stops.dropWhile_isNameChar] at h
        cases hl.stops.colonFollows (x := []) h
      · have hd : ∀ y, (x ++ y).dropWhile isNameChar = x.dropWhile isNameChar ++ y := by
          intro y
          rw [List.dropWhile_append, if_neg]
          simpa [List.dropWhile_eq_nil_iff] using hx
        rw [hd] at h ⊢
        exact colonFollows_append (hl.stops.colonFollows h) z
    | false =>
      cases hk : isQuote c with
      | true =>
        rw [isSome_head?_quote hk] at h ⊢
        by_cases hx : c ∈ x
        · obtain ⟨x₁, x₂, rfl, hn⟩ := List.eq_append_cons_of_mem hx
          rw [List.append_assoc, List.cons_append, quoteLooks_at hn] at h ⊢
          exact colonFollows_append (hl.stops.colonFollows h) z
        · rw [quoteLooks_append hx] at h ⊢
          exact hl.quotes c hk h
      | false =>
        rw [head?_eq_none hn hk] at h
        cases h

theorem afterWord?_eq_some_iff {word : String} : afterWord? word cs = some r ↔
    ∃ c x, cs = word.toList ++ c :: x ∧ isBlank c = true ∧ r = trimLeft x := by
  unfold afterWord?
  constructor
  · intro h
    cases ha : after? word.toList cs with
    | none => simp [ha] at h
    | some y =>
      cases y with
      | nil => simp [ha] at h
      | cons c x =>
        simp only [ha, Option.ite_none_right_eq_some, Option.some.injEq] at h
        exact ⟨c, x, after?_eq_some_iff.mp ha, h.1, h.2.symm⟩
  · rintro ⟨c, x, rfl, hc, rfl⟩
    simp [after?_append, hc]

theorem isSome_memberHead?_eq (cs : List Char) : (memberHead? cs).isSome =
    ((afterWord? "readonly" cs).any (fun r => (head? r).isSome) || (head? cs).isSome) := by
  rw [memberHead?, Option.orElse_eq_orElse, Option.orElse_eq_or, Option.isSome_or,
    Option.isSome_bind]

theorem isSome_memberHead? : (memberHead? cs).isSome = true ↔
    (∃ c x, cs = "readonly".toList ++ c :: x ∧ isBlank c = true ∧
      (head? (trimLeft x)).isSome = true) ∨ (head? cs).isSome = true := by
  rw [isSome_memberHead?_eq, Bool.or_eq_true, Option.any_eq_true]
  constructor
  · rintro (⟨r, hr, hh⟩ | h)
    · obtain ⟨c, x, he, hc, rfl⟩ := afterWord?_eq_some_iff.mp hr
      exact Or.inl ⟨c, x, he, hc, hh⟩
    · exact Or.inr h
  · rintro (⟨c, x, he, hc, hh⟩ | h)
    · exact Or.inl ⟨_, afterWord?_eq_some_iff.mpr ⟨c, x, he, hc, rfl⟩, hh⟩
    · exact Or.inr h

theorem Stops.memberHead?_eq_none (hz : Stops z) : memberHead? z = none := by
  rw [← Option.not_isSome_iff_eq_none, isSome_memberHead?, hz.head?_eq_none]
  rintro (⟨c, x, he, -⟩ | h)
  · exact hz.head?_ne (c := 'r') (by decide) (by rw [he]; rfl)
  · cases h

theorem Leads.memberHead? (hl : Leads z' z) (h : (memberHead? (q ++ z')).isSome = true) :
    (memberHead? (q ++ z)).isSome = true := by
  rw [isSome_memberHead?] at h ⊢
  rcases h with ⟨c, x, he, hc, hh⟩ | h
  · -- neither the word nor the blank is the semicolon that `z'` starts with
    have hx : ∃ x₀, q = "readonly".toList ++ c :: x₀ ∧ x = x₀ ++ z' := by
      have he' : q ++ z' = ("readonly".toList ++ [c]) ++ x := by simpa using he
      rcases List.append_eq_append_iff.mp he' with ⟨a, ha, hz⟩ | ⟨x₀, hq, hx⟩
      · obtain rfl | ⟨r, rfl⟩ := hl.stops
        · obtain ⟨rfl, rfl⟩ := List.append_eq_nil_iff.mp hz.symm
          exact ⟨[], by simpa using ha.symm, rfl⟩
        · cases a with
          | nil => exact ⟨[], by simpa using ha.symm, by simpa using hz.symm⟩
          | cons d a =>
            have hd : ';' = d := by simpa using congrArg List.head? hz
            have hm : ';' ∈ "readonly".toList ++ [c] := by
              rw [ha, hd]
              simp
            rcases List.mem_append.mp hm with hm | hm
            · exact absurd hm (by decide)
            · rw [← List.mem_singleton.mp hm] at hc
              cases hc
      · exact ⟨x₀, by simpa using hq, hx⟩
    obtain ⟨x₀, rfl, rfl⟩ := hx
    refine Or.inl ⟨c, x₀ ++ z, by simp, hc, ?_⟩
    by_cases hb : AllBlank x₀
    · rw [trimLeft_append hb, hl.stops.trimLeft_eq, hl.stops.head?_eq_none] at hh
      cases hh
    · have hn : trimLeft x₀ ≠ [] := mt trimLeft_eq_nil_iff.mp hb
      rw [trimLeft_append_of_ne_nil hn] at hh ⊢
      exact hl.head? hh
  · exact Or.inr (hl.head? h)

theorem Leads.looks (hl : Leads z' z) (h : looks (q ++ z') = true) : looks (q ++ z) = true := by
  unfold ObjectType.looks at h ⊢
  by_cases hb : AllBlank q
  · rw [trimLeft_append hb, hl.stops.trimLeft_eq, hl.stops.memberHead?_eq_none] at h
    cases h
  · have hn : trimLeft q ≠ [] := mt trimLeft_eq_nil_iff.mp hb
    rw [trimLeft_append_of_ne_nil hn] at h ⊢
    exact hl.memberHead? h

/-- No member starts with the end of an arrow. -/
theorem head?_ne_of_looks (h : looks cs = true) : (trimLeft cs).head? ≠ some '>' := by
  intro hh
  obtain ⟨x, hx⟩ : ∃ x, trimLeft cs = '>' :: x := by
    cases he : trimLeft cs with
    | nil => simp [he] at hh
    | cons c x =>
      rw [he, List.head?_cons, Option.some.injEq] at hh
      exact ⟨x, by rw [hh]⟩
  rw [looks, hx, isSome_memberHead?, head?_eq_none rfl rfl] at h
  rcases h with ⟨c, x, he, -⟩ | h
  · exact absurd (congrArg List.head? he) (by simp)
  · cases h

namespace Scan

variable {s s' : Scan} {b b' before before' body lead t u : List Char} {l : List (List Char)}

/-- A scan that ends no member ends none with other text around, if that does not make more members
visible. -/
theorem Passes.transfer (h : Passes z s before u) (hb : ':' ∈ before' → ':' ∈ before)
    (hl : ∀ q, looks (q ++ z') = true → looks (q ++ z) = true) : Passes z' s before' u := by
  induction u generalizing s before before' with
  | nil => trivial
  | cons c u ih =>
    obtain ⟨hc, hu⟩ := h
    refine ⟨?_, ih hu ?_⟩
    · rintro ⟨hd, he⟩
      apply hc
      refine ⟨hd, endsMember_iff.mpr ?_⟩
      rcases endsMember_iff.mp he with hm | ⟨hn, hm, hlo⟩
      · exact Or.inl hm
      · exact Or.inr ⟨hn, hb hm, hl u hlo⟩
    · intro hm
      rcases List.mem_cons.mp hm with rfl | hm
      · exact List.mem_cons_self ..
      · exact List.mem_cons_of_mem c (hb hm)

/-- The scan does not take the first character of a text for the end of an arrow. -/
def Fresh (s : Scan) (body : List Char) : Prop :=
  s.last = some '=' → (trimLeft body).head? ≠ some '>'

theorem Fresh.of_append (h : s.Fresh (u ++ v)) : s.Fresh u := by
  intro hl hh
  exact h hl (head?_trimLeft_append hh v)

/-- What is passed once is passed again without the blanks around it. -/
theorem Passes.again (hp : Passes v s [] (b ++ (t ++ b'))) (hf : s.Fresh (b ++ (t ++ b')))
    (hd : s.depth = s'.depth) (hs : s'.last ≠ some '=') (hb : AllBlank b) (ht : IsBare t)
    (hb' : AllBlank b') (hz : Leads z (b' ++ v)) (hlead : AllBlank lead) :
    Passes z s' lead t ∧ s'.run t = s.run (b ++ (t ++ b')) := by
  obtain ⟨c, r, rfl, hc⟩ := ht.head
  have hstep : s.step c = s'.step c := by
    refine step_congr hd hc ?_
    rintro rfl
    refine ⟨fun hl => hf hl ?_, hs⟩
    rw [trimLeft_append hb, List.cons_append, trimLeft_cons hc]
    rfl
  rw [passes_append, run_of_allBlank s hb, passes_append] at hp
  have hpass : Passes z s lead (c :: r) := by
    refine hp.2.1.transfer ?_ fun q hq => hz.looks hq
    intro hm
    exact (hlead.not_mem (by rfl) hm).elim
  constructor
  · simpa only [Passes, hstep] using hpass
  · rw [run_append, run_of_allBlank s hb, run_append, run_of_allBlank _ hb', run_cons, run_cons,
      hstep]

/-- A body is cut into segments: between two ends of members the scan just passes. -/
inductive Cuts : Scan → List Char → List (List Char) → Prop
  | last {s : Scan} {u : List Char} (hp : Passes [] s [] u) : Cuts s u [u]
  | cut {s : Scan} {u v : List Char} {c : Char} {l : List (List Char)}
      (hp : Passes (c :: v) s [] u) (hd : ((s.run u).step c).depth = 0)
      (he : endsMember u.reverse c v = true) (h : Cuts ((s.run u).step c) v l) :
      Cuts s (u ++ c :: v) (u :: l)

theorem cuts_of_passes (h : Passes r s [] u) :
    Cuts s (u ++ r) ((s.run u).segments u.reverse r) := by
  induction r generalizing s u with
  | nil =>
    rw [segments_nil, List.reverse_reverse, List.append_nil]
    exact .last h
  | cons c r ih =>
    by_cases hc : ((s.run u).step c).depth = 0 ∧ endsMember u.reverse c r = true
    · obtain ⟨hd, he⟩ := hc
      rw [segments_cons_end hd he, List.reverse_reverse]
      exact .cut h hd he (ih (u := []) trivial)
    · rw [segments_cons hc]
      have hp : Passes r s [] (u ++ [c]) := by
        refine passes_append.mpr ⟨h, ?_, trivial⟩
        simpa using hc
      simpa [run_append] using ih hp

theorem cuts_segments (s : Scan) (body : List Char) : Cuts s body (s.segments [] body) :=
  cuts_of_passes (u := []) trivial

/-- Behind the end of a member the scan starts afresh. -/
theorem fresh_step (he : endsMember before c v = true) : (s.step c).Fresh v := by
  intro hl
  rcases endsMember_iff.mp he with hm | ⟨rfl, -, hlook⟩
  · simp only [isMark, Bool.or_eq_true, decide_eq_true_eq] at hm
    rcases hm with rfl | rfl <;> cases hl
  · exact head?_ne_of_looks hlook

/-- No end of a member is a bracket. -/
theorem depth_of_endsMember (he : endsMember before c v = true) : (s.step c).depth = s.depth := by
  rcases endsMember_iff.mp he with hm | ⟨rfl, -⟩
  · simp only [isMark, Bool.or_eq_true, decide_eq_true_eq] at hm
    rcases hm with rfl | rfl <;> rfl
  · rfl

end Scan

end ConventionLint.ObjectType
