import ConventionLint.Module.Basic
import ConventionLint.Proofs.Layout

/-! Readers and the nodes they find. A property of the nodes at one level of a tree is kept by a reader
if it holds of all that the reader adds there; each way to put readers together keeps what its parts
keep, and lays out what it finds. Names and the plain parts of strings stand on one line of the
source. -/
namespace ConventionLint.Source

/-! Lexemes without a line feed. -/

theorem not_mem_take_takeWhile {p : Char → Bool} (hp : p '\n' = false) (cs : List Char) :
    '\n' ∉ cs.take (cs.takeWhile p).length := by
  rw [← List.prefix_iff_eq_take.mp (List.takeWhile_prefix p)]
  intro h
  rw [List.all_eq_true.mp List.all_takeWhile _ h] at hp
  cases hp

theorem not_mem_take_codePointLength (cs : List Char) : '\n' ∉ cs.take (codePointLength cs) := by
  have hex : isHexDigit '\n' = false := by decide
  unfold codePointLength
  split
  · rename_i r
    dsimp only
    split
    · rename_i h
      have hr : '\n' ∉ r.take ((r.takeWhile isHexDigit).length + 1) := by
        rw [List.take_add_one, List.mem_append, ← List.head?_drop, h.2]
        simp [not_mem_take_takeWhile hex r]
      simpa using hr
    · simp
  · rename_i a b c d r hne
    split
    · rename_i h
      simp only [List.all_cons, List.all_nil, Bool.and_true, Bool.and_eq_true] at h
      have ne : ∀ x, isHexDigit x = true → '\n' ≠ x := by
        rintro x hx rfl
        rw [hex] at hx
        cases hx
      simp [ne a h.1, ne b h.2.1, ne c h.2.2.1, ne d h.2.2.2]
    · simp
  · simp

/-- A name has no line feed, if the escape it may start with has none. -/
theorem not_mem_take_nameTail {n : Nat} {cs : List Char} (h : '\n' ∉ cs.take n) :
    '\n' ∉ cs.take (nameTail n cs) := by
  induction cs generalizing n with
  | nil => simp
  | cons c r ih =>
    cases n with
    | succ n =>
      rw [List.take_succ_cons, List.mem_cons, not_or] at h
      rw [nameTail, Nat.add_comm, List.take_succ_cons, List.mem_cons, not_or]
      exact ⟨h.1, ih h.2⟩
    | zero =>
      rw [nameTail]
      split
      · rename_i hc
        have hn : '\n' ≠ c := by
          rintro rfl
          revert hc
          decide
        rw [Nat.add_comm, List.take_succ_cons, List.mem_cons, not_or]
        exact ⟨hn, ih (by simp)⟩
      · split
        · simp
        · rename_i k hk
          have he := not_mem_take_codePointLength (c :: r)
          rw [hk, List.take_succ_cons, List.mem_cons, not_or] at he
          rw [Nat.add_comm, List.take_succ_cons, List.mem_cons, not_or]
          exact ⟨he.1, ih he.2⟩

theorem not_mem_take_nameLength (cs : List Char) : '\n' ∉ cs.take (nameLength cs) := by
  unfold nameLength
  split
  · simp
  · split
    · simp
    · exact not_mem_take_nameTail (by simp)

/-! Trees whose names stand on one line. -/

/-- The characters of a span stand on one line. -/
def Span.OnLine (text : List Char) (s : Span) : Prop := '\n' ∉ s.cut text

namespace Node

/-- A node that stands for a name. -/
def IsName (text : List Char) (n : Node) : Prop :=
  n.span.OnLine text ∧ n.span.cut text ≠ []

/-- The plain parts of a string stand on one line each. -/
def IsPlain (text : List Char) (n : Node) : Prop :=
  ∀ c ∈ n.children, c.kind? = some .fragment → c.span.OnLine text

/-- What is asked of a node of some kind. An identifier is a name, a function is called by one, a string
in a property is plain, and what is imported is known by a name: by the one it gets, or else by its
own. -/
def TidyAs (text : List Char) (s : Span) (cs : List Node) : Kind → Prop
  | .identifier => s.OnLine text ∧ s.cut text ≠ []
  | .functionDeclaration => ∀ c ∈ cs, c.role = some .name → c.span.OnLine text
  | .importSpecifier =>
    (∀ c ∈ cs, c.role = some .asName → c.IsName text) ∧
      ((∃ c ∈ cs, c.role = some .asName) ∨ ∀ c ∈ cs, c.role = some .name → c.span.OnLine text)
  | .pair => ∀ c ∈ cs, c.kind? = some .string → c.IsPlain text
  | _ => True

/-- A tree in which every node is as it is asked of its kind. -/
inductive Tidy (text : List Char) : Node → Prop
  | comment (s : Span) : Tidy text (.comment s)
  | mk {k : Kind} {r : Option Role} {s : Span} {cs : List Node} (own : TidyAs text s cs k)
      (below : ∀ c ∈ cs, Tidy text c) : Tidy text (.mk k r s cs)

variable {text : List Char} {n : Node}

theorem Tidy.withRole (h : n.Tidy text) (r : Role) : (n.withRole r).Tidy text := by
  cases h with
  | comment s => exact .comment s
  | mk own below => exact .mk own below

theorem Tidy.of_mem (h : n.Tidy text) {c : Node} (hc : c ∈ n.children) : c.Tidy text := by
  cases h with
  | comment s => cases hc
  | mk own below => exact below c hc

theorem Tidy.own (h : n.Tidy text) {k : Kind} (hk : n.kind? = some k) :
    TidyAs text n.span n.children k := by
  cases h with
  | comment s => cases hk
  | mk own below =>
    cases hk
    exact own

/-- A tidy node as it is found, before it gets a part to play. It is no part of a string, and plain if
it is a string itself. -/
structure Fresh (text : List Char) (n : Node) : Prop where
  tidy : n.Tidy text
  role : n.role = none
  whole : n.kind? ≠ some .fragment
  plain : n.kind? = some .string → n.IsPlain text

theorem fresh_comment (text : List Char) (s : Span) : Fresh text (.comment s) where
  tidy := .comment s
  role := rfl
  whole := by simp [kind?]
  plain := by simp [kind?]

end Node

/-- Kinds of which nothing is asked, whatever stands below. The kind of a node in the grammar is
written out, so that instances find out by evaluation. -/
@[reducible] def Kind.isFree : Kind → Bool
  | .token _ => false
  | .identifier => false
  | .functionDeclaration => false
  | .importSpecifier => false
  | .pair => false
  | .string => false
  | .fragment => false
  | _ => true

theorem tidyAs_of_isFree {text : List Char} {k : Kind} (h : k.isFree = true) (s : Span)
    (cs : List Node) : Node.TidyAs text s cs k := by
  cases k <;> trivial

theorem isToken_of_isFree {k : Kind} (h : k.isFree = true) : k.isToken = false := by
  cases k with
  | token t => cases h
  | _ => rfl

/-- A node that is no string and no part of one is fresh if it is as it is asked of its kind. -/
theorem fresh_mk {text : List Char} {k : Kind} {s : Span} {cs : List Node} (hs : k ≠ .string)
    (hf : k ≠ .fragment) (own : Node.TidyAs text s cs k) (below : ∀ c ∈ cs, c.Tidy text) :
    Node.Fresh text (.mk k none s cs) where
  tidy := .mk own below
  role := rfl
  whole h := hf (Option.some.inj h)
  plain h := absurd (Option.some.inj h) hs

theorem fresh_of_isFree (text : List Char) {k : Kind} (h : k.isFree = true) (s : Span)
    {cs : List Node} (hcs : ∀ c ∈ cs, c.Tidy text) : Node.Fresh text (.mk k none s cs) := by
  refine fresh_mk ?_ ?_ (tidyAs_of_isFree h s cs) hcs
  · rintro rfl
    cases h
  · rintro rfl
    cases h

/-! What readers keep. -/

/-- A property of the nodes at one level: they are tidy, and every fresh node has it. -/
class Level (text : List Char) (Q : Node → Prop) : Prop where
  tidy : ∀ {n}, Q n → n.Tidy text
  fresh : ∀ {n}, Node.Fresh text n → Q n

instance (text : List Char) : Level text (Node.Tidy text) where
  tidy := id
  fresh := Node.Fresh.tidy

/-- The state has read the text up to its position, and the nodes it found have a property. -/
structure State.Holds (text : List Char) (Q : Node → Prop) (s : State) : Prop where
  rest : s.rest = text.drop s.pos
  found : ∀ n ∈ s.found, Q n

variable {α β : Type} {text : List Char} {Q : Node → Prop} {s t : State}

namespace State.Holds

theorem skip (h : s.Holds text Q) (n : Nat) : (s.skip n).Holds text Q where
  rest := by
    change s.rest.drop n = _
    rw [h.rest, List.drop_drop]
    rfl
  found := h.found

theorem cons (h : s.Holds text Q) {n : Node} (hn : Q n) :
    State.Holds text Q { s with found := n :: s.found } where
  rest := h.rest
  found := List.forall_mem_cons.mpr ⟨hn, h.found⟩

theorem take (h : s.Holds text Q) {k : Kind} {n : Nat} (hn : Q (.mk k none ⟨s.pos, s.pos + n⟩ [])) :
    (s.take k n).Holds text Q :=
  (h.skip n).cons hn

theorem takeComment [Level text Q] (h : s.Holds text Q) (n : Nat) :
    (s.takeComment n).Holds text Q :=
  (h.skip n).cons (Level.fresh (Node.fresh_comment text _))

theorem skipGapsUpTo [Level text Q] (h : s.Holds text Q) (n : Nat) :
    (s.skipGapsUpTo n).Holds text Q := by
  induction n generalizing s with
  | zero => exact h
  | succ n ih =>
    rw [State.skipGapsUpTo]
    split
    · exact h.skip _
    · exact ih ((h.skip _).takeComment _)

theorem skipGaps [Level text Q] (h : s.Holds text Q) : s.skipGaps.Holds text Q :=
  h.skipGapsUpTo _

/-- The next characters, cut from the text. -/
theorem cut_take (h : s.Holds text Q) (n : Nat) :
    Span.cut ⟨s.pos, s.pos + n⟩ text = s.rest.take n := by
  rw [Span.cut, h.rest]
  simp

end State.Holds

/-- A reader adds only nodes that have the property, and lays them out. -/
class Reader.Keeps (text : List Char) (Q : Node → Prop) (p : Reader α) : Prop where
  keeps : ∀ {s a t}, s.Holds text Q → p s = some (a, t) → t.Holds text Q
  laysOut : p.LaysOut

namespace Reader

section Combinators

variable {p : Reader α} {f : α → Reader β} {q : Reader α}

/-- A reader that only looks at the text. -/
theorem keeps_of_same (h : ∀ {s a t}, p s = some (a, t) → t = s) : Keeps text Q p where
  keeps hs hp := by
    rw [h hp]
    exact hs
  laysOut := laysOut_of_same h

instance keeps_pure (a : α) : Keeps text Q (pure a : Reader α) :=
  keeps_of_same fun h => (Prod.mk.inj (Option.some.inj h)).2.symm

instance keeps_failure : Keeps text Q (failure : Reader α) :=
  keeps_of_same fun h => by cases h

instance keeps_bind [hp : Keeps text Q p] [hf : ∀ a, Keeps text Q (f a)] :
    Keeps text Q (p >>= f) where
  keeps hs h := by
    obtain ⟨⟨a, u⟩, hu, ht⟩ := Option.bind_eq_some_iff.mp h
    exact (hf a).keeps (hp.keeps hs hu) ht
  laysOut := hp.laysOut.bind fun a => (hf a).laysOut

/-- The second part of a reader may depend on what the first one answers. -/
theorem keeps_bind_of [Keeps text Q p] (h : ∀ a, Keeps text Q (f a)) : Keeps text Q (p >>= f) :=
  keeps_bind

instance keeps_orElse [hp : Keeps text Q p] [hq : Keeps text Q q] : Keeps text Q (p <|> q) where
  keeps hs h := by
    rcases Option.or_eq_some_iff.mp h with h | ⟨-, h⟩
    · exact hp.keeps hs h
    · exact hq.keeps hs h
  laysOut := hp.laysOut.orElse hq.laysOut

instance keeps_ite {c : Prop} [Decidable c] [Keeps text Q p] [Keeps text Q q] :
    Keeps text Q (if c then p else q) := by
  split <;> infer_instance

instance keeps_guard {c : Prop} [Decidable c] : Keeps text Q (guard c : Reader Unit) := by
  unfold guard
  infer_instance

instance keeps_ahead : Keeps text Q ahead := keeps_of_same fun h => by
  cases h
  rfl

instance keeps_here : Keeps text Q here := keeps_of_same fun h => by
  cases h
  rfl

instance keeps_aheadChar : Keeps text Q aheadChar := by
  unfold aheadChar
  infer_instance

instance keeps_aheadWord : Keeps text Q aheadWord := by
  unfold aheadWord
  infer_instance

instance keeps_can : Keeps text Q (can p) := keeps_of_same fun h => by
  cases h
  rfl

instance keeps_newest : Keeps text Q newest := keeps_of_same fun h => by
  obtain ⟨n, -, hn⟩ := Option.bind_eq_some_iff.mp h
  obtain ⟨k, -, hk⟩ := Option.map_eq_some_iff.mp hn
  cases hk
  rfl

instance keeps_maybe {p : Reader Unit} [Keeps text Q p] : Keeps text Q (maybe p) := by
  unfold maybe
  infer_instance

instance keeps_gaps [Level text Q] : Keeps text Q gaps where
  keeps hs hp := by
    cases hp
    exact hs.skipGaps
  laysOut := laysOut_gaps

theorem keeps_manyUpTo {p : Reader Unit} [hp : Keeps text Q p] (n : Nat) :
    Keeps text Q (manyUpTo n p) where
  keeps hs h := of_manyUpTo hp.keeps hs h
  laysOut := hp.laysOut.manyUpTo n

instance keeps_many {p : Reader Unit} [hp : Keeps text Q p] : Keeps text Q (many p) where
  keeps hs h := (keeps_manyUpTo _).keeps hs h
  laysOut _ _ _ _ hs h := hp.laysOut.manyUpTo _ hs h

instance keeps_oneOf_nil : Keeps text Q (oneOf []) := keeps_failure

instance keeps_oneOf_cons {p : Reader Unit} {ps : List (Reader Unit)} [Keeps text Q p]
    [Keeps text Q (oneOf ps)] : Keeps text Q (oneOf (p :: ps)) :=
  keeps_orElse

instance keeps_oneOf_map {ι : Type} {f : ι → Reader Unit} [∀ i, Keeps text Q (f i)] (l : List ι) :
    Keeps text Q (oneOf (l.map f)) := by
  induction l with
  | nil => exact keeps_oneOf_nil
  | cons i l ih => exact keeps_oneOf_cons

end Combinators

/-- A condition that is found to hold by evaluation. -/
class Known (b : Bool) : Prop where
  eq : b = true

instance : Known true := ⟨rfl⟩

section Tokens

theorem fresh_leaf (text : List Char) {k : Kind} (hk : k.isFree = true) (s : Span) :
    Node.Fresh text (.mk k none s []) :=
  fresh_of_isFree text hk s (by simp)

theorem fresh_token (text : List Char) (w : String) (s : Span) :
    Node.Fresh text (.mk (.token w) none s []) :=
  fresh_mk (by simp) (by simp) trivial (by simp)

/-- The next characters are an identifier if they are on one line. -/
theorem fresh_identifier (hs : s.Holds text Q) {n : Nat} (hn : n ≠ 0) (hr : s.rest ≠ [])
    (hl : '\n' ∉ s.rest.take n) :
    Node.Fresh text (.mk .identifier none ⟨s.pos, s.pos + n⟩ []) := by
  refine fresh_mk (by decide) (by decide) ⟨?_, ?_⟩ (by simp)
  · rw [Span.OnLine, hs.cut_take]
    exact hl
  · rw [hs.cut_take]
    simp [hn, hr]

/-- What an identifier leaves: it is the newest node, on one line. Where it ends may depend on more than
the characters of names. -/
theorem of_identifier {length : List Char → Nat} (hempty : length [] = 0)
    (hline : ∀ cs : List Char, '\n' ∉ cs.take (length cs)) {u : Unit} (hs : s.Holds text Q)
    (hp : run .identifier (length s.rest) s = some (u, t)) :
    ∃ n ns, t.found = n :: ns ∧ n.kind? = some .identifier ∧ Node.Fresh text n ∧
      State.Holds text Q { t with found := ns } := by
  obtain ⟨hn, rfl⟩ := of_run hp
  have hr : s.rest ≠ [] := by
    intro hr
    rw [hr] at hn
    exact hn hempty
  refine ⟨_, _, rfl, rfl, fresh_identifier hs hn hr (hline _), ?_⟩
  exact ⟨(hs.skip _).rest, hs.found⟩

variable [Level text Q]

instance keeps_run {k : Kind} [hk : Known k.isFree] (n : Nat) : Keeps text Q (run k n) where
  keeps hs hp := by
    rw [(of_run hp).2]
    exact hs.take (Level.fresh (fresh_leaf text hk.eq _))
  laysOut := laysOut_run k n

/-- Any part of a string is tidy by itself. -/
instance keeps_run_fragment (n : Nat) : Keeps text (Node.Tidy text) (run .fragment n) where
  keeps hs hp := by
    rw [(of_run hp).2]
    exact hs.take (.mk trivial (by simp))
  laysOut := laysOut_run .fragment n

instance keeps_comment (n : Nat) : Keeps text Q (comment n) where
  keeps hs hp := by
    rw [of_comment hp]
    exact hs.takeComment n
  laysOut := laysOut_comment n

instance keeps_litHere (w : String) : Keeps text Q (litHere w) where
  keeps hs hp := by
    rw [of_litHere hp]
    exact hs.take (Level.fresh (fresh_token text w _))
  laysOut := laysOut_litHere w

instance keeps_lit (w : String) : Keeps text Q (lit w) := by
  unfold lit
  infer_instance

instance keeps_symbol (w : String) (after : List Char) : Keeps text Q (symbol w after) := by
  unfold symbol
  infer_instance

instance keeps_word (w : String) : Keeps text Q (word w) := by
  unfold word
  infer_instance

instance keeps_words (ws : List String) : Keeps text Q (words ws) := by
  unfold words
  infer_instance

instance keeps_name {k : Kind} [Known k.isFree] : Keeps text Q (name k) := by
  unfold name
  infer_instance

theorem of_name {u : Unit} (hs : s.Holds text Q) (hp : name .identifier s = some (u, t)) :
    ∃ n ns, t.found = n :: ns ∧ n.kind? = some .identifier ∧ Node.Fresh text n ∧
      State.Holds text Q { t with found := ns } :=
  of_identifier rfl not_mem_take_nameLength hs.skipGaps hp

/-- A newest node that is fresh is at every level. -/
theorem holds_of_fresh {n : Node} {ns : List Node} (hf : t.found = n :: ns)
    (hn : Node.Fresh text n) (ht : State.Holds text Q { t with found := ns }) : t.Holds text Q where
  rest := ht.rest
  found := by
    rw [hf]
    exact List.forall_mem_cons.mpr ⟨Level.fresh hn, ht.found⟩

instance keeps_identifier : Keeps text Q (name .identifier) where
  keeps hs hp := by
    obtain ⟨n, ns, hf, -, hn, ht⟩ := of_name hs hp
    exact holds_of_fresh hf hn ht
  laysOut := laysOut_gaps_run .identifier nameLength

instance keeps_nameExcept {k : Kind} [Keeps text Q (name k)] (reserved : List String) :
    Keeps text Q (nameExcept k reserved) := by
  unfold nameExcept
  infer_instance

instance keeps_parens {p : Reader Unit} [Keeps text Q p] : Keeps text Q (parens p) := by
  unfold parens
  infer_instance

instance keeps_brackets {p : Reader Unit} [Keeps text Q p] : Keeps text Q (brackets p) := by
  unfold brackets
  infer_instance

instance keeps_braces {p : Reader Unit} [Keeps text Q p] : Keeps text Q (braces p) := by
  unfold braces
  infer_instance

instance keeps_listed {p : Reader Unit} [Keeps text Q p] : Keeps text Q (listed p) := by
  unfold listed
  infer_instance

instance keeps_holed {p : Reader Unit} [Keeps text Q p] : Keeps text Q (holed p) := by
  unfold holed
  infer_instance

end Tokens

section Nodes

/-- The answer of a reader is a kind of some sort. -/
class Answers (K : Kind → Bool) (p : Reader Kind) : Prop where
  answers : ∀ {s k t}, p s = some (k, t) → K k = true

variable {K : Kind → Bool}

instance answers_pure {k : Kind} [hk : Known (K k)] : Answers K (pure k) where
  answers hp := by
    cases hp
    exact hk.eq

instance answers_pure_ite {c : Prop} [Decidable c] {k k' : Kind} [hk : Known (K k)]
    [hk' : Known (K k')] : Answers K (pure (if c then k else k')) where
  answers hp := by
    cases hp
    split
    · exact hk.eq
    · exact hk'.eq

instance answers_bind {p : Reader α} {f : α → Reader Kind} [∀ a, Answers K (f a)] :
    Answers K (p >>= f) where
  answers hp := by
    obtain ⟨⟨a, u⟩, -, hf⟩ := Option.bind_eq_some_iff.mp hp
    exact Answers.answers hf

instance answers_orElse {p q : Reader Kind} [Answers K p] [Answers K q] : Answers K (p <|> q) where
  answers hp := by
    rcases Option.or_eq_some_iff.mp hp with hp | ⟨-, hp⟩
    · exact Answers.answers hp
    · exact Answers.answers hp

variable [Level text Q]

/-- What is found below a node is at a level of its own. -/
theorem keeps_nodeOf_of {R : Node → Prop} {p : Reader Kind} (hl : p.LaysOut) (hb : Branches p)
    (h : ∀ {s k t}, s.Holds text R → p s = some (k, t) →
      t.rest = text.drop t.pos ∧ ∀ span, Q (.mk k none span t.found.reverse)) :
    Keeps text Q (nodeOf p) where
  keeps := by
    intro s a t hs hp
    obtain ⟨k, u, hu, rfl⟩ := of_nodeOf hp
    have hg := hs.skipGaps
    have hempty : State.Holds text R { s.skipGaps with found := [] } := ⟨hg.rest, by simp⟩
    obtain ⟨hrest, hnode⟩ := h hempty hu
    exact ⟨hrest, List.forall_mem_cons.mpr ⟨hnode _, hg.found⟩⟩
  laysOut := hl.nodeOf hb

/-- A node of a kind that asks for no more than what its children have. -/
theorem keeps_nodeOf_sort {R : Node → Prop} {p : Reader Kind} [Answers K p] [hp : Keeps text R p]
    (hK : ∀ k, K k = true → k.isToken = false)
    (h : ∀ k, K k = true → ∀ span cs, (∀ c ∈ cs, R c) → Q (.mk k none span cs)) :
    Keeps text Q (nodeOf p) := by
  have hb : Branches p := fun _ _ _ hu => hK _ (Answers.answers hu)
  refine keeps_nodeOf_of (R := R) hp.laysOut hb fun hs hu => ?_
  have ht := hp.keeps hs hu
  exact ⟨ht.rest, fun span => h _ (Answers.answers hu) span _ fun c hc =>
    ht.found c (List.mem_reverse.mp hc)⟩

theorem keeps_node_of {R : Node → Prop} {k : Kind} {p : Reader Unit} [Keeps text R p]
    (hb : k.isToken = false) (h : ∀ span cs, (∀ c ∈ cs, R c) → Q (.mk k none span cs)) :
    Keeps text Q (node k p) := by
  have hk : Known (decide (k = k)) := ⟨by simp⟩
  refine keeps_nodeOf_sort (K := fun k' => k' = k) (R := R) (fun k' hk' => ?_) fun k' hk' => ?_
  · cases of_decide_eq_true hk'
    exact hb
  · cases of_decide_eq_true hk'
    exact h

instance keeps_nodeOf {p : Reader Kind} [Answers Kind.isFree p] [Keeps text (Node.Tidy text) p] :
    Keeps text Q (nodeOf p) :=
  keeps_nodeOf_sort (fun _ => isToken_of_isFree) fun _ hk span _ hcs =>
    Level.fresh (fresh_of_isFree text hk span hcs)

instance keeps_node {k : Kind} {p : Reader Unit} [Known k.isFree] [Keeps text (Node.Tidy text) p] :
    Keeps text Q (node k p) := by
  unfold node
  infer_instance

/-- The newest node goes below the one that extends it. -/
instance keeps_extendOf {p : Reader Kind} [Answers Kind.isFree p]
    [hp : Keeps text (Node.Tidy text) p] : Keeps text Q (extendOf p) where
  keeps := by
    intro s a t hs h
    obtain ⟨n, outer, k, u, hf, hu, rfl⟩ := of_extendOf h
    have hn := List.forall_mem_cons.mp (hf ▸ hs.found)
    have htidy : n.Tidy text := Level.tidy hn.1
    have hfirst : State.Holds text (Node.Tidy text) { s with found := [n] } :=
      ⟨hs.rest, by simpa using htidy⟩
    have ht : u.Holds text (Node.Tidy text) := hp.keeps hfirst hu
    have hnode : Node.Fresh text (.mk k none ⟨n.span.start, u.pos⟩ u.found.reverse) :=
      fresh_of_isFree text (Answers.answers hu) _ fun c hc => ht.found c (List.mem_reverse.mp hc)
    exact ⟨ht.rest, List.forall_mem_cons.mpr ⟨Level.fresh hnode, hn.2⟩⟩
  laysOut := hp.laysOut.extendOf fun _ _ _ hu => isToken_of_isFree (Answers.answers hu)

instance keeps_extend {k : Kind} {p : Reader Unit} [Known k.isFree]
    [Keeps text (Node.Tidy text) p] : Keeps text Q (extend k p) := by
  unfold extend
  infer_instance

end Nodes

section Roles

/-- Nodes of a level stay there when they get a part to play. -/
class Marks (Q : Node → Prop) (r : Role) : Prop where
  marks : ∀ {n}, Q n → Q (n.withRole r)

instance (r : Role) : Marks (Node.Tidy text) r where
  marks h := h.withRole r

instance keeps_mark {r : Role} [Marks Q r] : Keeps text Q (mark r) where
  keeps := by
    intro s a t hs hp
    obtain ⟨n, ns, hf, rfl⟩ := of_mark hp
    have hn := List.forall_mem_cons.mp (hf ▸ hs.found)
    exact ⟨hs.rest, List.forall_mem_cons.mpr ⟨Marks.marks hn.1, hn.2⟩⟩
  laysOut := laysOut_mark r

instance keeps_playing {r : Role} {p : Reader Unit} [Keeps text Q p] [Marks Q r] :
    Keeps text Q (playing r p) := by
  unfold playing
  infer_instance

/-- Identifiers may play a part that other nodes of the level may not. -/
class Names (text : List Char) (Q : Node → Prop) (r : Role) : Prop where
  names : ∀ {n}, Node.Fresh text n → n.kind? = some .identifier → Q (n.withRole r)

/-- A name that plays a part: it is the newest node. -/
theorem of_playing_name {r : Role} {u : Unit} [Level text Q] [Names text Q r] (hs : s.Holds text Q)
    (hp : playing r (name .identifier) s = some (u, t)) :
    t.Holds text Q ∧ ∃ n ∈ t.found, n.role = some r := by
  obtain ⟨⟨_, v⟩, hv, hm⟩ := Option.bind_eq_some_iff.mp hp
  obtain ⟨n, ns, hf, hk, hn, ht⟩ := of_name hs hv
  obtain ⟨n', ns', hf', rfl⟩ := of_mark hm
  cases hf.symm.trans hf'
  refine ⟨⟨ht.rest, List.forall_mem_cons.mpr ⟨Names.names hn hk, ht.found⟩⟩, _,
    List.mem_cons_self .., ?_⟩
  cases n with
  | comment s => cases hk
  | mk k r s cs => rfl

instance keeps_playing_name {r : Role} [Level text Q] [Names text Q r] :
    Keeps text Q (playing r (name .identifier)) where
  keeps hs hp := (of_playing_name hs hp).1
  laysOut := (laysOut_gaps_run .identifier nameLength).bind fun _ => laysOut_mark r

end Roles

end Reader

end ConventionLint.Source
