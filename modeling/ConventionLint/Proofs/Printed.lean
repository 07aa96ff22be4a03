import ConventionLint.Source.Grammar

/-! Readers on printed text. A printed phrase is a text with the nodes that it stands for; each way to
put readers together takes the phrases of its parts off the front of a text, one after the other, and
finds their nodes. -/
namespace ConventionLint.Source

/-- A text, and the nodes that are found in it by where it starts. -/
@[ext]
structure Printed where
  text : List Char
  nodes : Nat → List Node

namespace Printed

/-- A text without a node. -/
def plain (u : List Char) : Printed := ⟨u, fun _ => []⟩

instance : Append Printed where
  append a b := ⟨a.text ++ b.text, fun i => a.nodes i ++ b.nodes (i + a.text.length)⟩

/-- A phrase with a gap before it as one node. -/
def node (gap : List Char) (k : Kind) (r : Option Role) (a : Printed) : Printed where
  text := gap ++ a.text
  nodes i := [.mk k r ⟨i + gap.length, i + gap.length + a.text.length⟩ (a.nodes (i + gap.length))]

def token (gap : List Char) (t : String) : Printed := node gap (.token t) none (plain t.toList)

/-- Phrases one after the other. -/
def concat : List Printed → Printed
  | [] => plain []
  | a :: l => a ++ concat l

variable {a b c : Printed}

@[simp] theorem text_plain (u : List Char) : (plain u).text = u := rfl

@[simp] theorem nodes_plain (u : List Char) (i : Nat) : (plain u).nodes i = [] := rfl

@[simp] theorem text_append (a b : Printed) : (a ++ b).text = a.text ++ b.text := rfl

@[simp] theorem nodes_append (a b : Printed) (i : Nat) :
    (a ++ b).nodes i = a.nodes i ++ b.nodes (i + a.text.length) := rfl

@[simp] theorem text_node (gap : List Char) (k : Kind) (r : Option Role) (a : Printed) :
    (node gap k r a).text = gap ++ a.text := rfl

@[simp] theorem nodes_node (gap : List Char) (k : Kind) (r : Option Role) (a : Printed) (i : Nat) :
    (node gap k r a).nodes i
      = [.mk k r ⟨i + gap.length, i + gap.length + a.text.length⟩ (a.nodes (i + gap.length))] := rfl

@[simp] theorem text_token (gap : List Char) (t : String) : (token gap t).text = gap ++ t.toList := rfl

theorem append_plain_nil (a : Printed) : a ++ plain [] = a := by
  ext1
  · simp
  · funext i
    simp

theorem plain_nil_append (a : Printed) : plain [] ++ a = a := by
  ext1
  · simp
  · funext i
    simp

end Printed

open Printed

/-! Gaps and names at the front of a text. -/

/-- A text that is empty or starts with a token, and not with a gap or a comment. -/
def AtToken (u : List Char) : Prop := u.head?.all (fun c => !isGap c && c ≠ '/') = true

/-- A text of gaps only. -/
def IsGaps (u : List Char) : Prop := u.all isGap = true

/-- A text that no name goes on with. -/
def Halts (v : List Char) : Prop := v.head?.all (fun c => !isNamePart c && c ≠ '\\') = true

instance (u : List Char) : Decidable (AtToken u) := inferInstanceAs (Decidable (_ = true))

instance (u : List Char) : Decidable (IsGaps u) := inferInstanceAs (Decidable (_ = true))

instance (v : List Char) : Decidable (Halts v) := inferInstanceAs (Decidable (_ = true))

/-- A word: a name without escapes. -/
structure IsWord (u : List Char) : Prop where
  head : u.head?.any (fun c => !c.isDigit) = true
  parts : u.all isNamePart = true

instance (u : List Char) : Decidable (IsWord u) :=
  decidable_of_iff (u.head?.any (fun c => !c.isDigit) = true ∧ u.all isNamePart = true)
    ⟨fun h => ⟨h.1, h.2⟩, fun h => ⟨h.1, h.2⟩⟩

variable {u v gap : List Char} {pos : Nat} {found : List Node} {c : Char}

theorem commentLength_cons (h : c ≠ '/') (r : List Char) : commentLength (c :: r) = 0 := by
  unfold commentLength
  split
  · rename_i he
    exact (h (List.cons.inj he).1).elim
  · rename_i he
    exact (h (List.cons.inj he).1).elim
  · rfl

theorem AtToken.commentLength_eq (h : AtToken u) : commentLength u = 0 := by
  cases u with
  | nil => rfl
  | cons c r =>
    have hc : isGap c = false ∧ c ≠ '/' := by simpa [AtToken] using h
    exact commentLength_cons hc.2 r

theorem AtToken.takeWhile_eq (h : AtToken u) (hg : IsGaps gap) :
    (gap ++ u).takeWhile isGap = gap := by
  rw [List.takeWhile_append_of_pos (List.all_eq_true.mp hg)]
  cases u with
  | nil => simp
  | cons c r =>
    have hc : isGap c = false ∧ c ≠ '/' := by simpa [AtToken] using h
    simp [hc.1]

theorem skipGaps_eq (hg : IsGaps gap) (hu : AtToken u) :
    State.skipGaps ⟨gap ++ u, pos, found⟩ = ⟨u, pos + gap.length, found⟩ := by
  unfold State.skipGaps State.skipGapsUpTo State.skip
  simp only [hu.takeWhile_eq hg, List.drop_left, hu.commentLength_eq]

theorem codePointLength_cons (h : c ≠ '\\') (r : List Char) : codePointLength (c :: r) = 0 := by
  unfold codePointLength
  split
  · rename_i he
    exact (h (List.cons.inj he).1).elim
  · rename_i he
    exact (h (List.cons.inj he).1).elim
  · rfl

theorem Halts.nameTail_eq (h : Halts v) : nameTail 0 v = 0 := by
  cases v with
  | nil => rfl
  | cons c r =>
    have hc : isNamePart c = false ∧ c ≠ '\\' := by simpa [Halts] using h
    simp [nameTail, hc.1, codePointLength_cons hc.2]

theorem Halts.nameLength_eq (h : Halts v) : nameLength v = 0 := by
  cases v with
  | nil => rfl
  | cons c r =>
    rw [nameLength, h.nameTail_eq]
    exact ite_self 0

theorem nameTail_append (h : u.all isNamePart = true) (hv : Halts v) :
    nameTail 0 (u ++ v) = u.length := by
  induction u with
  | nil => exact hv.nameTail_eq
  | cons c u ih =>
    rw [List.all_cons, Bool.and_eq_true] at h
    rw [List.cons_append, nameTail, if_pos h.1, ih h.2, List.length_cons, Nat.add_comm]

theorem not_gap_of_isNamePart (h : isNamePart c = true) : isGap c = false ∧ c ≠ '/' := by
  constructor
  · simp only [isNamePart, Bool.not_or, Bool.and_eq_true, Bool.not_eq_true'] at h
    exact h.1.2
  · rintro rfl
    exact absurd h (by decide)

namespace IsWord

theorem ne_nil (h : IsWord u) : u ≠ [] := by
  rintro rfl
  cases h.head

theorem nameLength_append (h : IsWord u) (hv : Halts v) : nameLength (u ++ v) = u.length := by
  have htail := nameTail_append h.parts hv
  cases u with
  | nil => cases h.head
  | cons c u =>
    have hc : c.isDigit = false := by simpa using h.head
    rw [List.cons_append, nameLength, hc]
    exact htail

theorem atToken_append (h : IsWord u) (v : List Char) : AtToken (u ++ v) := by
  cases u with
  | nil => cases h.head
  | cons c u =>
    have hc := not_gap_of_isNamePart (Bool.and_eq_true_iff.mp h.parts).1
    simp [AtToken, hc.1, hc.2]

end IsWord

/-- The name at the front of a text, empty if there is none. -/
def wordAt (u : List Char) : String := String.ofList (u.take (nameLength u))

theorem IsWord.wordAt_append (h : IsWord u) (hv : Halts v) : wordAt (u ++ v) = String.ofList u := by
  rw [wordAt, h.nameLength_append hv, List.take_left]

theorem Halts.wordAt_eq (h : Halts v) : wordAt v = "" := by
  rw [wordAt, h.nameLength_eq]
  rfl

/-! Signs and spaces. -/

theorem halts_append (hg : IsGaps gap) (hu : Halts u) : Halts (gap ++ u) := by
  cases gap with
  | nil => exact hu
  | cons c r =>
    have hc : isGap c = true := (Bool.and_eq_true_iff.mp hg).1
    have hpart : isNamePart c = false := by
      cases h : isNamePart c with
      | false => rfl
      | true => rw [(not_gap_of_isNamePart h).1] at hc; cases hc
    have hne : c ≠ '\\' := by
      rintro rfl
      exact absurd hc (by decide)
    simp [Halts, hpart, hne]

/-- A text that starts with a sign: not with a gap, a comment or a name. -/
structure AtSign (u : List Char) : Prop where
  token : AtToken u
  halts : Halts u

theorem atSign_cons (c : Char) (h : AtToken [c] ∧ Halts [c]) (u : List Char) : AtSign (c :: u) :=
  ⟨h.1, h.2⟩

theorem isGaps_nil : IsGaps [] := rfl

theorem isGaps_space : IsGaps [' '] := rfl

theorem halts_space (v : List Char) : Halts (' ' :: v) := rfl

/-- No name starts with a sign. -/
theorem IsWord.head?_any (h : IsWord u) (v : List Char) {p : Char → Bool}
    (hp : ∀ c, p c = true → isNamePart c = false) : (u ++ v).head?.any p = false := by
  cases u with
  | nil => cases h.head
  | cons c u =>
    have hc := (Bool.and_eq_true_iff.mp h.parts).1
    cases hpc : p c with
    | false => simpa using hpc
    | true => rw [hp c hpc] at hc; cases hc

theorem isGaps_replicate (k : Nat) : IsGaps (List.replicate k ' ') := by
  rw [IsGaps, List.all_replicate]
  split
  · rfl
  · rfl

/-- A word is no sign. -/
theorem isPrefixOf_word {t : String} (hu : IsWord u)
    (ht : t.toList.head?.any (fun c => !isNamePart c) = true) (v : List Char) :
    t.toList.isPrefixOf (u ++ v) = false := by
  cases hu' : u with
  | nil => exact absurd hu' hu.ne_nil
  | cons c r =>
    have hc : isNamePart c = true := List.all_eq_true.mp hu.parts c (by simp [hu'])
    cases ht' : t.toList with
    | nil => simp [ht'] at ht
    | cons d s =>
      have hd : isNamePart d = false := by simpa [ht'] using ht
      have hne : (d == c) = false := by
        rw [beq_eq_false_iff_ne]
        rintro rfl
        rw [hc] at hd
        cases hd
      rw [List.cons_append, List.isPrefixOf, hne]
      rfl

namespace Reader

variable {α : Type} {p q : Reader Unit} {a b : Printed} {k : Kind} {r : Role} {t w : String}

/-- A reader takes a phrase off a text that goes on with `v`. -/
structure Takes (p : Reader Unit) (a : Printed) (v : List Char) : Prop where
  run_eq : ∀ pos found, p ⟨a.text ++ v, pos, found⟩
    = some ((), ⟨v, pos + a.text.length, (a.nodes pos).reverse ++ found⟩)

/-- A reader finds nothing at the front of a text. -/
structure Refuses (p : Reader α) (v : List Char) : Prop where
  run_eq : ∀ pos found, p ⟨v, pos, found⟩ = none

/-! Readers one after the other. -/

theorem takes_gaps (hg : IsGaps gap) (hv : AtToken v) : Takes gaps (plain gap) v := by
  constructor
  intro pos found
  change some ((), State.skipGaps ⟨gap ++ v, pos, found⟩) = _
  rw [skipGaps_eq hg hv]
  rfl

theorem takes_pure (v : List Char) : Takes (pure ()) (plain []) v := ⟨fun _ _ => rfl⟩

theorem Takes.bind (hp : Takes p a (b.text ++ v)) (hq : Takes q b v) :
    Takes (do p; q) (a ++ b) v := by
  constructor
  intro pos found
  change (p ⟨(a ++ b).text ++ v, pos, found⟩).bind (fun r => q r.2) = _
  rw [text_append, List.append_assoc, hp.run_eq pos found]
  change q _ = _
  rw [hq.run_eq]
  simp [Nat.add_assoc]

theorem Takes.bind_nil (hp : Takes p a v) (hq : Takes q (plain []) v) : Takes (do p; q) a v := by
  have h := hp.bind hq
  rw [append_plain_nil] at h
  exact h

theorem Takes.nil_bind (hp : Takes p (plain []) (b.text ++ v)) (hq : Takes q b v) :
    Takes (do p; q) b v := by
  have h := hp.bind hq
  rw [plain_nil_append] at h
  exact h

theorem Refuses.bind {p : Reader α} {β : Type} (h : Refuses p v) (f : α → Reader β) :
    Refuses (p >>= f) v := by
  constructor
  intro pos found
  change (p ⟨v, pos, found⟩).bind _ = _
  rw [h.run_eq pos found]
  rfl

/-- A reader fails if a later part of it does. -/
theorem Takes.refuses_bind {β : Type} {q : Reader β} (hp : Takes p a v) (hq : Refuses q v) :
    Refuses (do p; q) (a.text ++ v) := by
  constructor
  intro pos found
  change (p ⟨a.text ++ v, pos, found⟩).bind (fun r => q r.2) = _
  rw [hp.run_eq pos found]
  exact hq.run_eq _ _

/-! Looking ahead. -/

theorem ahead_bind (f : List Char → Reader α) (hg : IsGaps gap) (hu : AtToken u) (pos : Nat)
    (found : List Node) : (ahead >>= f) ⟨gap ++ u, pos, found⟩ = f u ⟨gap ++ u, pos, found⟩ := by
  change f (State.skipGaps ⟨gap ++ u, pos, found⟩).rest _ = _
  rw [skipGaps_eq hg hu]

theorem aheadWord_bind (f : String → Reader α) (hg : IsGaps gap) (hu : AtToken u) (pos : Nat)
    (found : List Node) :
    (aheadWord >>= f) ⟨gap ++ u, pos, found⟩ = f (wordAt u) ⟨gap ++ u, pos, found⟩ := by
  change f (wordAt (State.skipGaps ⟨gap ++ u, pos, found⟩).rest) _ = _
  rw [skipGaps_eq hg hu]

theorem aheadChar_bind (f : Option Char → Reader α) (hg : IsGaps gap) (hu : AtToken u) (pos : Nat)
    (found : List Node) :
    (aheadChar >>= f) ⟨gap ++ u, pos, found⟩ = f u.head? ⟨gap ++ u, pos, found⟩ := by
  change f (State.skipGaps ⟨gap ++ u, pos, found⟩).rest.head? _ = _
  rw [skipGaps_eq hg hu]

theorem guard_eq (P : Prop) [Decidable P] :
    (guard P : Reader Unit) = if P then pure () else failure := rfl

theorem guard_bind_of_pos {P : Prop} [Decidable P] (h : P) (q : Reader α) :
    (do guard P; q : Reader α) = q := by
  rw [guard_eq, if_pos h]
  rfl

theorem guard_bind_of_neg {P : Prop} [Decidable P] (h : ¬ P) (q : Reader α) :
    (do guard P; q : Reader α) = failure := by
  rw [guard_eq, if_neg h]
  rfl

theorem refuses_failure (v : List Char) : Refuses (failure : Reader α) v := ⟨fun _ _ => rfl⟩

/-! Tokens. -/

theorem lit_eq (t : String) (s : State) : lit t s = litHere t s.skipGaps := rfl

theorem name_eq (k : Kind) (s : State) :
    name k s = run k (nameLength s.skipGaps.rest) s.skipGaps := rfl

theorem takes_lit (hg : IsGaps gap) (ht : AtToken (t.toList ++ v)) : Takes (lit t) (token gap t) v := by
  constructor
  intro pos found
  rw [lit_eq, text_token, List.append_assoc, skipGaps_eq hg ht, litHere, if_pos (by simp)]
  simp [State.take, token, ← String.length_toList, Nat.add_assoc]

theorem takes_sign {t : String} (ht : t.toList.head?.any (fun c => !isGap c && c ≠ '/') = true)
    (hg : IsGaps gap) (v : List Char) : Takes (lit t) (token gap t) v := by
  refine takes_lit hg ?_
  cases h : t.toList with
  | nil => simp [h] at ht
  | cons c r => simpa [AtToken, h] using ht

theorem refuses_lit (hg : IsGaps gap) (hu : AtToken u) (h : t.toList.isPrefixOf u = false) :
    Refuses (lit t) (gap ++ u) := by
  constructor
  intro pos found
  rw [lit_eq, skipGaps_eq hg hu, litHere, if_neg (by simp [h])]

theorem takes_word (hg : IsGaps gap) (hw : IsWord w.toList) (hv : Halts v) :
    Takes (word w) (token gap w) v := by
  constructor
  intro pos found
  rw [word, text_token, List.append_assoc, aheadWord_bind _ hg (hw.atToken_append v),
    hw.wordAt_append hv, guard_bind_of_pos (by simp), ← List.append_assoc]
  exact (takes_lit hg (hw.atToken_append v)).run_eq pos found

theorem refuses_word (hg : IsGaps gap) (hu : AtToken u) (h : wordAt u ≠ w) :
    Refuses (word w) (gap ++ u) := by
  constructor
  intro pos found
  rw [word, aheadWord_bind _ hg hu, guard_bind_of_neg h]
  rfl

theorem takes_name (hg : IsGaps gap) (hu : IsWord u) (hv : Halts v) :
    Takes (name k) (.node gap k none (plain u)) v := by
  constructor
  intro pos found
  rw [name_eq, text_node, text_plain, List.append_assoc, skipGaps_eq hg (hu.atToken_append v),
    hu.nameLength_append hv, run, if_neg (mt List.length_eq_zero_iff.mp hu.ne_nil)]
  simp [State.take, Nat.add_assoc]

theorem refuses_name (hg : IsGaps gap) (hu : AtToken u) (h : Halts u) :
    Refuses (name k) (gap ++ u) := by
  constructor
  intro pos found
  rw [name_eq, skipGaps_eq hg hu, h.nameLength_eq, run, if_pos rfl]

/-! Nodes. -/

theorem Takes.node (h : Takes p a v) (hg : IsGaps gap) (ha : AtToken (a.text ++ v)) :
    Takes (node k p) (.node gap k none a) v := by
  constructor
  intro pos found
  have hskip := @skipGaps_eq _ _ pos found hg ha
  have hp := h.run_eq (pos + gap.length) []
  rw [text_node, List.append_assoc]
  unfold Reader.node nodeOf
  dsimp only
  rw [hskip]
  change ((p ⟨a.text ++ v, pos + gap.length, []⟩).bind fun x => some (k, x.2)).map _ = _
  rw [hp]
  simp [close, Nat.add_assoc]

theorem Refuses.playing (h : Refuses p v) (r : Role) : Refuses (playing r p) v := h.bind _

theorem Refuses.node (h : Refuses p u) (hg : IsGaps gap) (hu : AtToken u) :
    Refuses (node k p) (gap ++ u) := by
  constructor
  intro pos found
  unfold Reader.node nodeOf
  dsimp only
  rw [skipGaps_eq hg hu]
  change ((p ⟨u, pos + gap.length, []⟩).bind fun x => some (k, x.2)).map _ = _
  rw [h.run_eq]
  rfl

theorem Takes.playing (h : Takes p (.node gap k none a) v) (r : Role) :
    Takes (playing r p) (.node gap k (some r) a) v := by
  constructor
  intro pos found
  have hp := h.run_eq pos found
  rw [text_node] at hp ⊢
  unfold Reader.playing
  change (p ⟨gap ++ a.text ++ v, pos, found⟩).bind (fun x => mark r x.2) = _
  rw [hp]
  rfl

/-! Choices. -/

theorem Takes.orElse_left (h : Takes p a v) (q : Reader Unit) : Takes (p <|> q) a v := by
  constructor
  intro pos found
  change (p _).or _ = _
  rw [h.run_eq pos found]
  rfl

theorem Takes.orElse_right (h : Takes q a v) (hp : Refuses p (a.text ++ v)) :
    Takes (p <|> q) a v := by
  constructor
  intro pos found
  change (p _).or (q _) = _
  rw [hp.run_eq pos found, h.run_eq pos found]
  rfl

theorem Refuses.orElse {p q : Reader α} (hp : Refuses p v) (hq : Refuses q v) :
    Refuses (p <|> q) v := by
  constructor
  intro pos found
  change (p _).or (q _) = _
  rw [hp.run_eq pos found, hq.run_eq pos found]
  rfl

theorem takes_maybe_nil (h : Refuses p v) : Takes (maybe p) (plain []) v :=
  (takes_pure v).orElse_right h

theorem Takes.maybe (h : Takes p a v) : Takes (maybe p) a v := h.orElse_left _

/-! Repetitions. -/

/-- A reader takes phrases off a text one after the other, and finds no more where they end. -/
def TakesEach (p : Reader Unit) : List Printed → List Char → Prop
  | [], v => Refuses p v
  | a :: l, v => a.text ≠ [] ∧ Takes p a ((concat l).text ++ v) ∧ TakesEach p l v

section

variable {l : List Printed}

theorem TakesEach.length_le (h : TakesEach p l v) : l.length ≤ (concat l).text.length := by
  induction l with
  | nil => exact Nat.zero_le _
  | cons a l ih =>
    have ha := List.length_pos_iff.mpr h.1
    have ih := ih h.2.2
    rw [concat, text_append, List.length_append, List.length_cons]
    omega

theorem manyUpTo_of_none {n : Nat} {s : State} (h : p s = none) :
    manyUpTo (n + 1) p s = some ((), s) := by
  simp only [manyUpTo, h]

theorem manyUpTo_of_some {n : Nat} {s t : State} (h : p s = some ((), t)) (ht : t.pos ≠ s.pos) :
    manyUpTo (n + 1) p s = manyUpTo n p t := by
  simp only [manyUpTo, h, if_neg ht]

theorem TakesEach.manyUpTo {n : Nat} (h : TakesEach p l v) (hn : l.length ≤ n) :
    Takes (manyUpTo n p) (concat l) v := by
  induction l generalizing n with
  | nil =>
    cases n with
    | zero => exact takes_pure v
    | succ n =>
      constructor
      intro pos found
      exact manyUpTo_of_none (h.run_eq pos found)
  | cons a l ih =>
    cases n with
    | zero => cases hn
    | succ n =>
      obtain ⟨hne, ha, hl⟩ := h
      have hpos : a.text.length ≠ 0 := mt List.length_eq_zero_iff.mp hne
      have ih := ih hl (Nat.le_of_succ_le_succ hn)
      constructor
      intro pos found
      have ha := ha.run_eq pos found
      rw [concat, text_append, List.append_assoc, manyUpTo_of_some ha (by simpa using hpos),
        ih.run_eq]
      simp [Nat.add_assoc]

theorem TakesEach.many (h : TakesEach p l v) : Takes (many p) (concat l) v := by
  constructor
  intro pos found
  refine (h.manyUpTo ?_).run_eq pos found
  have := h.length_le
  simp only [List.length_append]
  omega

variable {Follows : List Char → Prop}

theorem follows_concat (h : ∀ a ∈ l, ∀ u, Follows u → Follows (a.text ++ u)) (hf : Follows v) :
    Follows ((concat l).text ++ v) := by
  induction l with
  | nil => exact hf
  | cons a l ih =>
    rw [concat, text_append, List.append_assoc]
    exact h a (List.mem_cons_self ..) _ (ih fun b hb => h b (List.mem_cons_of_mem _ hb))

/-- Each phrase is taken where another of them or the end may follow it. -/
theorem takesEach_of_follows (hv : Refuses p v) (hf : Follows v) (hne : ∀ a ∈ l, a.text ≠ [])
    (hp : ∀ a ∈ l, ∀ u, Follows u → Takes p a u)
    (h : ∀ a ∈ l, ∀ u, Follows u → Follows (a.text ++ u)) : TakesEach p l v := by
  induction l with
  | nil => exact hv
  | cons a l ih =>
    have hl := List.forall_mem_cons.mp h
    -- The first phrase is followed by all the others and the end.
    refine ⟨hne a (List.mem_cons_self ..), hp a (List.mem_cons_self ..) _ (follows_concat hl.2 hf), ?_⟩
    exact ih (fun b hb => hne b (List.mem_cons_of_mem _ hb))
      (fun b hb => hp b (List.mem_cons_of_mem _ hb)) hl.2

end

/-! Ends of statements. -/

theorem understoodUpTo_of_endsHere {f : Follow} {s : State} (h : endsHere f s.rest = true) (n : Nat) :
    understoodUpTo f (n + 1) s = some ((), s) := by
  change (if endsHere f s.rest = true then pure () else _ : Reader Unit) s = _
  rw [if_pos h]
  rfl

theorem takes_understood {f : Follow} (h : endsHere f v = true) : Takes (understood f) (plain []) v := by
  constructor
  intro pos found
  exact understoodUpTo_of_endsHere (s := ⟨v, pos, found⟩) h v.length

theorem refuses_lineComment (hu : AtToken u) : Refuses lineComment u := by
  constructor
  intro pos found
  have hgap : u.takeWhile isGap = [] := hu.takeWhile_eq isGaps_nil
  simp only [lineComment, State.skip, hgap, List.length_nil, List.drop_zero, hu.commentLength_eq]

theorem refuses_understood {f : Follow} (hu : AtToken u) (h : endsHere f u = false) :
    Refuses (understood f) u := by
  constructor
  intro pos found
  change (if endsHere f u = true then pure () else do lineComment; understoodUpTo f u.length :
    Reader Unit) ⟨u, pos, found⟩ = _
  rw [if_neg (by rw [h]; exact Bool.false_ne_true)]
  exact ((refuses_lineComment hu).bind _).run_eq pos found

theorem onward_eq (f : Follow) (s : State) :
    onward true f s = (guard ((!(understood f s).isSome) = true) : Reader Unit) s := rfl

theorem takes_onward {f : Follow} (h : Refuses (understood f) v) :
    Takes (onward true f) (plain []) v := by
  constructor
  intro pos found
  rw [text_plain, List.nil_append, onward_eq, h.run_eq, guard_eq, if_pos (by simp)]
  rfl

theorem refuses_onward {f : Follow} (h : Takes (understood f) (plain []) v) :
    Refuses (onward true f) v := by
  constructor
  intro pos found
  have hend := h.run_eq pos found
  rw [text_plain, List.nil_append] at hend
  rw [onward_eq, hend, guard_eq, if_neg (by simp)]
  rfl

end Reader

end ConventionLint.Source
