import ConventionLint.Source.Reader

/-! Where the nodes of a tree stand. The children of a node stand in its span, one after the other, and
a token has none. What each reader does is said once; readers go through the text from left to right, so
what they find is laid out. -/
namespace ConventionLint.Source

def Kind.isToken : Kind → Bool
  | .token _ => true
  | _ => false

namespace Node

/-- The nodes stand between two places of the text, one after the other. -/
def Between (start stop : Nat) : List Node → Prop
  | [] => start ≤ stop
  | c :: cs => start ≤ c.span.start ∧ c.span.start ≤ c.span.stop ∧ Between c.span.stop stop cs

variable {start stop place : Nat} {l m : List Node} {n c : Node}

theorem between_append :
    Between start stop (l ++ m) ↔ ∃ place, Between start place l ∧ Between place stop m := by
  induction l generalizing start with
  | nil =>
    constructor
    · exact fun h => ⟨start, Nat.le_refl _, h⟩
    · rintro ⟨place, hl, hm⟩
      cases m with
      | nil => exact Nat.le_trans hl hm
      | cons c m => exact ⟨Nat.le_trans hl hm.1, hm.2⟩
  | cons c l ih =>
    rw [List.cons_append, Between, ih]
    constructor
    · rintro ⟨hc, hs, place, hl, hm⟩
      exact ⟨place, ⟨hc, hs, hl⟩, hm⟩
    · rintro ⟨place, ⟨hc, hs, hl⟩, hm⟩
      exact ⟨hc, hs, place, hl, hm⟩

theorem Between.le (h : Between start stop l) : start ≤ stop := by
  induction l generalizing start with
  | nil => exact h
  | cons c l ih => exact Nat.le_trans h.1 (Nat.le_trans h.2.1 (ih h.2.2))

theorem Between.mono (h : Between start stop l) (hp : stop ≤ place) : Between start place l := by
  rw [← List.append_nil l]
  exact between_append.mpr ⟨stop, h, hp⟩

/-- Each of the nodes stands between the two places. -/
theorem Between.mem (h : Between start stop l) (hc : c ∈ l) :
    start ≤ c.span.start ∧ c.span.start ≤ c.span.stop ∧ c.span.stop ≤ stop := by
  obtain ⟨before, after, rfl⟩ := List.append_of_mem hc
  obtain ⟨place, hb, ha⟩ := between_append.mp h
  exact ⟨Nat.le_trans hb.le ha.1, ha.2.1, ha.2.2.le⟩

theorem Between.pairwise (h : Between start stop l) :
    l.Pairwise fun a b => a.span.stop ≤ b.span.start := by
  induction l generalizing start with
  | nil => exact .nil
  | cons c l ih => exact .cons (fun b hb => (h.2.2.mem hb).1) (ih h.2.2)

/-- A tree in which every node's children stand in its span in their order, and no token has any. -/
inductive LaidOut : Node → Prop
  | comment (s : Span) : LaidOut (.comment s)
  | mk {k : Kind} {r : Option Role} {s : Span} {cs : List Node} (leaf : k.isToken = true → cs = [])
      (fits : Between s.start s.stop cs) (below : ∀ c ∈ cs, LaidOut c) : LaidOut (.mk k r s cs)

theorem span_withRole (r : Role) (n : Node) : (n.withRole r).span = n.span := by
  cases n <;> rfl

theorem LaidOut.withRole (h : n.LaidOut) (r : Role) : (n.withRole r).LaidOut := by
  cases h with
  | comment s => exact .comment s
  | mk leaf fits below => exact .mk leaf fits below

theorem LaidOut.of_mem (h : n.LaidOut) (hc : c ∈ n.children) : c.LaidOut := by
  cases h with
  | comment s => cases hc
  | mk leaf fits below => exact below c hc

theorem LaidOut.between (h : n.LaidOut) (hc : c ∈ n.children) :
    Between n.span.start n.span.stop n.children := by
  cases h with
  | comment s => cases hc
  | mk leaf fits below => exact fits

/-- All that stands below a node is found through named nodes. -/
theorem LaidOut.isNamed_of_mem (h : n.LaidOut) (hc : c ∈ n.children) : n.isNamed = true := by
  cases h with
  | comment s => rfl
  | @mk k r s cs leaf fits below =>
    cases k with
    | token t =>
      cases leaf rfl
      cases hc
    | _ => rfl

end Node

/-- What a state has found is laid out from some place of the text up to its position. -/
structure State.LaidOut (start : Nat) (s : State) : Prop where
  fits : Node.Between start s.pos s.found.reverse
  found : ∀ n ∈ s.found, n.LaidOut

namespace State.LaidOut

variable {start : Nat} {s : State}

theorem skip (h : s.LaidOut start) (n : Nat) : (s.skip n).LaidOut start where
  fits := h.fits.mono (Nat.le_add_right s.pos n)
  found := h.found

/-- A node that stands after all others is laid out with them. -/
theorem push (h : s.LaidOut start) {n : Node} {pos : Nat} (hn : n.LaidOut)
    (hs : s.pos ≤ n.span.start) (hle : n.span.start ≤ n.span.stop) (hp : n.span.stop ≤ pos)
    (rest : List Char) : LaidOut start ⟨rest, pos, n :: s.found⟩ where
  fits := by
    rw [List.reverse_cons]
    exact Node.between_append.mpr ⟨s.pos, h.fits, hs, hle, hp⟩
  found := List.forall_mem_cons.mpr ⟨hn, h.found⟩

/-- The newest node stands after all others. -/
theorem pop (h : s.LaidOut start) {n : Node} {ns : List Node} (hf : s.found = n :: ns) :
    n.LaidOut ∧ n.span.start ≤ n.span.stop ∧ n.span.stop ≤ s.pos ∧
      LaidOut start ⟨s.rest, n.span.start, ns⟩ := by
  have hfits := h.fits
  have hfound := h.found
  rw [hf, List.reverse_cons] at hfits
  rw [hf] at hfound
  obtain ⟨place, hns, hplace, hle, hp⟩ := Node.between_append.mp hfits
  exact ⟨hfound n (by simp), hle, hp, hns.mono hplace, fun c hc => hfound c (by simp [hc])⟩

theorem take (h : s.LaidOut start) (k : Kind) (n : Nat) : (s.take k n).LaidOut start := by
  have hle : s.pos ≤ s.pos + n := Nat.le_add_right s.pos n
  have hn : Node.LaidOut (.mk k none ⟨s.pos, s.pos + n⟩ []) := .mk (fun _ => rfl) hle (by simp)
  exact h.push hn (Nat.le_refl s.pos) hle (Nat.le_refl (s.pos + n)) (s.rest.drop n)

theorem takeComment (h : s.LaidOut start) (n : Nat) : (s.takeComment n).LaidOut start := by
  have hn : Node.LaidOut (.comment ⟨s.pos, s.pos + n⟩) := .comment _
  exact h.push hn (Nat.le_refl s.pos) (Nat.le_add_right s.pos n) (Nat.le_refl (s.pos + n))
    (s.rest.drop n)

theorem skipGapsUpTo (h : s.LaidOut start) (n : Nat) : (s.skipGapsUpTo n).LaidOut start := by
  induction n generalizing s with
  | zero => exact h
  | succ n ih =>
    rw [State.skipGapsUpTo]
    split
    · exact h.skip _
    · exact ih ((h.skip _).takeComment _)

theorem skipGaps (h : s.LaidOut start) : s.skipGaps.LaidOut start :=
  h.skipGapsUpTo _

/-- All that was found from some place on goes below one node. -/
theorem close {t : State} {place : Nat} (h : s.LaidOut start) (hs : s.pos ≤ place)
    (ht : t.LaidOut place) {k : Kind} (hk : k.isToken = false) :
    (Reader.close k place s.found t).LaidOut start := by
  have hleaf : k.isToken = true → t.found.reverse = [] := by simp [hk]
  have hn : Node.LaidOut (.mk k none ⟨place, t.pos⟩ t.found.reverse) :=
    .mk hleaf ht.fits fun c hc => ht.found c (List.mem_reverse.mp hc)
  exact h.push hn hs ht.fits.le (Nat.le_refl t.pos) t.rest

end State.LaidOut

namespace Reader

variable {α β : Type} {p q : Reader α} {f : α → Reader β} {s t : State} {k : Kind} {r : Role}
  {n : Nat} {u : Unit}

/-! What a reader has done if it succeeds. -/

theorem of_run (h : run k n s = some (u, t)) : n ≠ 0 ∧ t = s.take k n := by
  unfold run at h
  split at h
  · cases h
  · cases h
    exact ⟨‹_›, rfl⟩

theorem of_comment (h : comment n s = some (u, t)) : t = s.takeComment n := by
  unfold comment at h
  split at h
  · cases h
  · cases h
    rfl

theorem of_litHere {w : String} (h : litHere w s = some (u, t)) : t = s.take (.token w) w.length := by
  unfold litHere at h
  split at h
  · cases h
    rfl
  · cases h

theorem of_mark (h : mark r s = some (u, t)) :
    ∃ c cs, s.found = c :: cs ∧ t = { s with found := c.withRole r :: cs } := by
  unfold mark at h
  split at h
  · cases h
  · rename_i c cs hf
    cases h
    exact ⟨c, cs, hf, rfl⟩

theorem of_nodeOf {p : Reader Kind} (h : nodeOf p s = some (u, t)) :
    ∃ k v, p { s.skipGaps with found := [] } = some (k, v) ∧
      t = close k s.skipGaps.pos s.skipGaps.found v := by
  obtain ⟨⟨k, v⟩, hv, ht⟩ := Option.map_eq_some_iff.mp h
  cases ht
  exact ⟨k, v, hv, rfl⟩

theorem of_extendOf {p : Reader Kind} (h : extendOf p s = some (u, t)) :
    ∃ c outer k v, s.found = c :: outer ∧ p { s with found := [c] } = some (k, v) ∧
      t = close k c.span.start outer v := by
  unfold extendOf at h
  split at h
  · cases h
  · rename_i c outer hf
    obtain ⟨⟨k, v⟩, hv, ht⟩ := Option.map_eq_some_iff.mp h
    cases ht
    exact ⟨c, outer, k, v, hf, hv, rfl⟩

/-- What a reader keeps up, its repetition does, too. -/
theorem of_manyUpTo {p : Reader Unit} {I : State → Prop}
    (hp : ∀ {s u t}, I s → p s = some (u, t) → I t) (hs : I s)
    (h : manyUpTo n p s = some (u, t)) : I t := by
  induction n generalizing s with
  | zero =>
    cases h
    exact hs
  | succ n ih =>
    rw [manyUpTo] at h
    dsimp only at h
    split at h
    · cases h
      exact hs
    · rename_i v hv
      split at h
      · cases h
        exact hs
      · exact ih (hp hs hv) h

/-! Readers lay out what they find. -/

/-- A reader lays out what it finds after what was found before. -/
def LaysOut (p : Reader α) : Prop :=
  ∀ ⦃start s a t⦄, s.LaidOut start → p s = some (a, t) → t.LaidOut start

theorem laysOut_of_same (h : ∀ {s a t}, p s = some (a, t) → t = s) : LaysOut p := by
  intro start s a t hs hp
  rw [h hp]
  exact hs

theorem LaysOut.bind (hp : LaysOut p) (hf : ∀ a, LaysOut (f a)) : LaysOut (p >>= f) := by
  intro start s b t hs h
  obtain ⟨⟨a, u⟩, hu, ht⟩ := Option.bind_eq_some_iff.mp h
  exact hf a (hp hs hu) ht

theorem LaysOut.orElse (hp : LaysOut p) (hq : LaysOut q) : LaysOut (p <|> q) := by
  intro start s a t hs h
  rcases Option.or_eq_some_iff.mp h with h | ⟨-, h⟩
  · exact hp hs h
  · exact hq hs h

theorem LaysOut.manyUpTo {p : Reader Unit} (hp : LaysOut p) (n : Nat) : LaysOut (manyUpTo n p) := by
  intro start s a t hs h
  exact of_manyUpTo (fun hs hu => hp hs hu) hs h

theorem laysOut_gaps : LaysOut gaps := by
  intro start s a t hs h
  cases h
  exact hs.skipGaps

theorem laysOut_run (k : Kind) (n : Nat) : LaysOut (run k n) := by
  intro start s a t hs h
  rw [(of_run h).2]
  exact hs.take k n

theorem laysOut_comment (n : Nat) : LaysOut (comment n) := by
  intro start s a t hs h
  rw [of_comment h]
  exact hs.takeComment n

theorem laysOut_litHere (w : String) : LaysOut (litHere w) := by
  intro start s a t hs h
  rw [of_litHere h]
  exact hs.take _ _

/-- The length of what is read may depend on the characters ahead. -/
theorem laysOut_gaps_run (k : Kind) (length : List Char → Nat) :
    LaysOut (do gaps; run k (length (← here))) := by
  have hhere : LaysOut here := laysOut_of_same fun h => by
    cases h
    rfl
  exact laysOut_gaps.bind fun _ => hhere.bind fun _ => laysOut_run k _

theorem laysOut_mark (r : Role) : LaysOut (mark r) := by
  intro start s a t hs h
  obtain ⟨c, cs, hf, rfl⟩ := of_mark h
  obtain ⟨hc, hle, hp, hcs⟩ := hs.pop hf
  rw [← Node.span_withRole r c] at hle hp hcs
  exact hcs.push (hc.withRole r) (Nat.le_refl _) hle hp s.rest

/-- The kind that a reader answers is no token's. -/
def Branches (p : Reader Kind) : Prop :=
  ∀ ⦃s k t⦄, p s = some (k, t) → k.isToken = false

theorem LaysOut.nodeOf {p : Reader Kind} (hp : LaysOut p) (hk : Branches p) : LaysOut (nodeOf p) := by
  intro start s a t hs h
  obtain ⟨k, v, hv, rfl⟩ := of_nodeOf h
  have hempty : State.LaidOut s.skipGaps.pos { s.skipGaps with found := [] } :=
    ⟨Nat.le_refl _, by simp⟩
  exact hs.skipGaps.close (Nat.le_refl _) (hp hempty hv) (hk hv)

theorem LaysOut.extendOf {p : Reader Kind} (hp : LaysOut p) (hk : Branches p) :
    LaysOut (extendOf p) := by
  intro start s a t hs h
  obtain ⟨c, outer, k, v, hf, hv, rfl⟩ := of_extendOf h
  obtain ⟨hc, hle, hend, houter⟩ := hs.pop hf
  have hfirst : State.LaidOut c.span.start { s with found := [c] } :=
    ⟨⟨Nat.le_refl _, hle, hend⟩, by simpa using hc⟩
  exact houter.close (Nat.le_refl _) (hp hfirst hv) (hk hv)

end Reader

end ConventionLint.Source
