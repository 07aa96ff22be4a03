import Mathlib.Data.List.Forall2
import ConventionLint.Module.TestLayout
import ConventionLint.Proofs.TypeComments

/-! What is left of a text without its comments and literals. A text that is put together from tokens
keeps all other characters, so that what stands in comments and literals does not matter. -/
namespace ConventionLint.TestLayout

open Text ObjectType

variable {c : Char} {cs r t : List Char} {n : Nat}

/-- What a literal stands between. -/
inductive Mark where
  | double
  | single
  | template
deriving DecidableEq

namespace Mark

def char : Mark → Char
  | double => '"'
  | single => '\''
  | template => '`'

/-- Whether a character may stand in a literal without a backslash. -/
def allows (m : Mark) (c : Char) : Bool :=
  c ≠ m.char && c ≠ '\\' && (c ≠ '\n' || m = template)

end Mark

/-- A character of a literal, or a backslash with the character behind it. -/
inductive Item (m : Mark) where
  | plain (c : Char) (h : m.allows c = true)
  | escaped (c : Char)

def Item.text {m : Mark} : Item m → List Char
  | plain c _ => [c]
  | escaped c => ['\\', c]

inductive Token where
  | line (t : List Char) (h : '\n' ∉ t)
  | block (t : List Char) (h : ¬ ['*', '/'] <:+: t)
  | literal (m : Mark) (items : List (Item m))
  | other (c : Char)

/-- A text with a comment at its front. -/
def StartsComment (cs : List Char) : Prop :=
  ['/', '/'] <+: cs ∨ ∃ t r, cs = '/' :: '*' :: (t ++ '*' :: '/' :: r)

namespace Token

def text : Token → List Char
  | line t _ => '/' :: '/' :: t
  | block t _ => '/' :: '*' :: (t ++ ['*', '/'])
  | literal m items => m.char :: (items.flatMap Item.text ++ [m.char])
  | other c => [c]

def IsComment : Token → Prop
  | line .. | block .. => True
  | literal .. | other _ => False

/-- What a token leaves. -/
def quiet (t : Token) : List Char :=
  match t with
  | line .. | block .. => List.replicate (t.text.count '\n') '\n'
  | literal .. => ['"', '"']
  | other c => [c]

/-- Whether a token may stand before a text: a line comment goes up to the end of its line, and no other
character starts a comment or a literal. -/
def Fits (rest : List Char) : Token → Prop
  | line .. => rest = [] ∨ rest.head? = some '\n'
  | block .. | literal .. => True
  | other c => c ≠ '"' ∧ c ≠ '\'' ∧ c ≠ '`' ∧ ¬ StartsComment (c :: rest)

/-- Tokens that differ in what stands in a comment or a literal only. -/
inductive Like : Token → Token → Prop where
  | comment {a b : Token} : a.IsComment → b.IsComment → a.text.count '\n' = b.text.count '\n' →
      Like a b
  | literal (m m' : Mark) (xs : List (Item m)) (ys : List (Item m')) :
      Like (.literal m xs) (.literal m' ys)
  | other (c : Char) : Like (.other c) (.other c)

end Token

/-- The text of tokens in a row. -/
def spell (ts : List Token) : List Char := ts.flatMap Token.text

/-- Tokens each of which may stand before those that follow. -/
def Fit : List Token → Prop
  | [] => True
  | t :: ts => t.Fits (spell ts) ∧ Fit ts

/-! The length of each token is found. -/

theorem exists_of_blockEnd (h : blockEnd cs = some n) : ∃ t r, cs = t ++ '*' :: '/' :: r := by
  fun_induction blockEnd cs generalizing n with
  | case1 r => exact ⟨[], r, rfl⟩
  | case2 c cs _ ih =>
    obtain ⟨k, hk, -⟩ := Option.map_eq_some_iff.mp h
    obtain ⟨t, r, rfl⟩ := ih hk
    exact ⟨c :: t, r, rfl⟩
  | case3 => cases h

theorem blockEnd_isSome (t r : List Char) : (blockEnd (t ++ '*' :: '/' :: r)).isSome = true := by
  induction t with
  | nil => rfl
  | cons c t ih =>
    rw [List.cons_append, blockEnd.eq_def]
    split
    · rfl
    · rename_i h
      cases h
      rw [Option.isSome_map]
      exact ih
    · rename_i h
      cases h

theorem comment_isSome_iff :
    (lineComment cs <|> blockComment cs).isSome = true ↔ StartsComment cs := by
  have hline : (lineComment cs).isSome = true ↔ ['/', '/'] <+: cs := by
    constructor
    · intro h
      by_contra hn
      rw [lineComment_eq_none hn] at h
      cases h
    · rintro ⟨r, rfl⟩
      rfl
  have hblock : (blockComment cs).isSome = true ↔ ∃ t r, cs = '/' :: '*' :: (t ++ '*' :: '/' :: r) := by
    constructor
    · intro h
      by_cases hp : ['/', '*'] <+: cs
      · obtain ⟨r, rfl⟩ := hp
        obtain ⟨n, hn⟩ := Option.isSome_iff_exists.mp h
        obtain ⟨k, hk, -⟩ := Option.map_eq_some_iff.mp hn
        obtain ⟨t, r', rfl⟩ := exists_of_blockEnd hk
        exact ⟨t, r', rfl⟩
      · rw [blockComment_eq_none hp] at h
        cases h
    · rintro ⟨t, r, rfl⟩
      rw [blockComment, Option.isSome_map]
      exact blockEnd_isSome t r
  rw [StartsComment, ← hline, ← hblock]
  cases lineComment cs <;> simp

instance : DecidablePred StartsComment := fun _ => decidable_of_iff _ comment_isSome_iff

instance (rest : List Char) (t : Token) : Decidable (t.Fits rest) :=
  match t with
  | .line .. => inferInstanceAs (Decidable (_ ∨ _))
  | .block .. | .literal .. => inferInstanceAs (Decidable True)
  | .other _ => inferInstanceAs (Decidable (_ ∧ _ ∧ _ ∧ _))

instance decidableFit : (ts : List Token) → Decidable (Fit ts)
  | [] => inferInstanceAs (Decidable True)
  | t :: ts =>
    have := decidableFit ts
    inferInstanceAs (Decidable (t.Fits (spell ts) ∧ Fit ts))

theorem noise_line (h : '\n' ∉ t) (hr : r = [] ∨ r.head? = some '\n') :
    noise ('/' :: '/' :: (t ++ r)) = some (t.length + 2) := by
  have ht : (t ++ r).takeWhile (· ≠ '\n') = t := by
    rw [List.takeWhile_append_of_pos]
    · rcases hr with rfl | hr
      · simp
      · obtain ⟨r, rfl⟩ := List.head?_eq_some_iff.mp hr
        simp
    · intro c hc
      apply decide_eq_true
      rintro rfl
      exact h hc
  change (some (2 + ((t ++ r).takeWhile (· ≠ '\n')).length) <|> _) = _
  rw [ht, Nat.add_comm]
  rfl

theorem noise_block (h : ¬ ['*', '/'] <:+: t) (r : List Char) :
    noise ('/' :: '*' :: (t ++ '*' :: '/' :: r)) = some (t.length + 4) := by
  change (none <|> (blockEnd (t ++ '*' :: '/' :: r)).map (· + 2)) = _
  rw [blockEnd_append h]
  rfl

theorem literalEnd_plain {mark : Char} {multiline : Bool} (h : c ≠ mark) (hb : c ≠ '\\')
    (hn : c ≠ '\n' ∨ multiline = true) (r : List Char) :
    literalEnd mark multiline (c :: r) = (literalEnd mark multiline r).map (· + 1) := by
  rw [literalEnd, if_neg h, if_neg]
  · rcases hn with hn | hn <;> simp [hb, hn]
  · rintro d r' rfl
    exact (hb rfl).elim

theorem Mark.of_allows {m : Mark} (h : m.allows c = true) :
    c ≠ m.char ∧ c ≠ '\\' ∧ (c ≠ '\n' ∨ decide (m = .template) = true) := by
  simpa [Mark.allows, and_assoc] using h

theorem literalEnd_items (m : Mark) (items : List (Item m)) (r : List Char) :
    literalEnd m.char (m = .template) (items.flatMap Item.text ++ m.char :: r)
      = some ((items.flatMap Item.text).length + 1) := by
  induction items with
  | nil => cases m <;> rfl
  | cons i items ih =>
    rw [List.flatMap_cons, List.append_assoc, List.length_append]
    cases i with
    | plain c hc =>
      obtain ⟨hm, hb, hn⟩ := Mark.of_allows hc
      rw [Item.text, List.singleton_append, literalEnd_plain hm hb hn, ih, Option.map_some]
      simp [Nat.add_comm]
    | escaped c =>
      rw [Item.text, List.cons_append, List.singleton_append, literalEnd, ih, Option.map_some]
      simp [Nat.add_comm, Nat.add_left_comm]

theorem noise_literal (m : Mark) (items : List (Item m)) (r : List Char) :
    noise (m.char :: (items.flatMap Item.text ++ m.char :: r))
      = some ((items.flatMap Item.text).length + 2) := by
  have h : noise (m.char :: (items.flatMap Item.text ++ m.char :: r))
      = (literalEnd m.char (m = .template) (items.flatMap Item.text ++ m.char :: r)).map (· + 1) := by
    cases m <;> rfl
  rw [h, literalEnd_items]
  rfl

theorem noise_other (h : (Token.other c).Fits r) : noise (c :: r) = none := by
  obtain ⟨hd, hs, hb, hc⟩ := h
  unfold noise
  split
  · rename_i r' he
    rw [← he, ← Option.not_isSome_iff_eq_none, comment_isSome_iff]
    exact hc
  · rename_i he
    exact (hb (List.cons.inj he).1).elim
  · rename_i he
    exact (hd (List.cons.inj he).1).elim
  · rename_i he
    exact (hs (List.cons.inj he).1).elim
  · rfl

/-! A token at the front is scrubbed on its own. -/

theorem scrub_of_noise {u : List Char} (h : noise (u ++ r) = some u.length) (hu : u ≠ []) :
    scrub (u ++ r) = quietNoise u ++ scrub r :=
  replaceAll_lexeme h hu

theorem quietNoise_literal (m : Mark) (cs : List Char) : quietNoise (m.char :: cs) = ['"', '"'] := by
  cases m <;> rfl

theorem quietNoise_comment (cs : List Char) :
    quietNoise ('/' :: cs) = List.replicate (('/' :: cs).count '\n') '\n' :=
  List.filter_eq '\n'

/-- What a token leaves does not depend on what follows. -/
theorem Token.scrub_text_append (t : Token) (h : t.Fits r) :
    scrub (t.text ++ r) = t.quiet ++ scrub r := by
  cases t with
  | line t ht =>
    have hn : noise (('/' :: '/' :: t) ++ r) = some ('/' :: '/' :: t).length := noise_line ht h
    rw [text, scrub_of_noise hn (by simp), quietNoise_comment]
    rfl
  | block t ht =>
    have hn : noise (('/' :: '*' :: (t ++ ['*', '/'])) ++ r)
        = some ('/' :: '*' :: (t ++ ['*', '/'])).length := by
      rw [List.cons_append, List.cons_append, List.append_assoc, List.cons_append,
        List.singleton_append, noise_block ht]
      simp
    rw [text, scrub_of_noise hn (by simp), quietNoise_comment]
    rfl
  | literal m items =>
    have hn : noise ((m.char :: (items.flatMap Item.text ++ [m.char])) ++ r)
        = some (m.char :: (items.flatMap Item.text ++ [m.char])).length := by
      rw [List.cons_append, List.append_assoc, List.singleton_append, noise_literal]
      simp
    rw [text, scrub_of_noise hn (by simp), quietNoise_literal]
    rfl
  | other c => exact replaceAll_cons (noise_other h)

theorem scrub_spell {ts : List Token} (h : Fit ts) : scrub (spell ts) = ts.flatMap Token.quiet := by
  induction ts with
  | nil => rfl
  | cons t ts ih =>
    obtain ⟨ht, hts⟩ := h
    rw [spell, List.flatMap_cons, List.flatMap_cons, ← ih hts]
    exact t.scrub_text_append ht

theorem Token.Like.quiet_eq {a b : Token} (h : a.Like b) : a.quiet = b.quiet := by
  have hcomment : ∀ t : Token, t.IsComment → t.quiet = List.replicate (t.text.count '\n') '\n' := by
    intro t ht
    cases t with
    | line => rfl
    | block => rfl
    | literal => cases ht
    | other => cases ht
  cases h with
  | comment ha hb hn => rw [hcomment a ha, hcomment b hb, hn]
  | literal => rfl
  | other => rfl

theorem flatMap_quiet_congr {ts us : List Token} (h : List.Forall₂ Token.Like ts us) :
    ts.flatMap Token.quiet = us.flatMap Token.quiet := by
  induction h with
  | nil => rfl
  | cons hab _ ih => rw [List.flatMap_cons, List.flatMap_cons, hab.quiet_eq, ih]

theorem calls_congr {s s' : String} (h : scrub s.toList = scrub s'.toList) : calls s = calls s' := by
  rw [calls, calls, h]

/-- Of a text made of tokens the characters outside of comments and literals stay, a literal leaves two
quotes, and a comment leaves its line feeds. So the calls outside all braces do not depend on what
stands in literals and comments, as long as no comment takes more or fewer lines. -/
theorem scrub_tokens {ts : List Token} (h : Fit ts) :
    scrub (spell ts) = ts.flatMap Token.quiet ∧
      ∀ us, Fit us → List.Forall₂ Token.Like ts us →
        calls (String.ofList (spell ts)) = calls (String.ofList (spell us)) := by
  refine ⟨scrub_spell h, fun us hu hlike => calls_congr ?_⟩
  rw [String.toList_ofList, String.toList_ofList, scrub_spell h, scrub_spell hu,
    flatMap_quiet_congr hlike]

/-- A quotient, a string, a template and two comments, each with marks of others in it. -/
def mixedTokens : List Token :=
  [.other 'a', .other '/', .other 'b', .literal .double [.plain '/' rfl, .plain '*' rfl, .escaped '"'],
    .block ['"', '\n', '\x7b'] (by decide), .literal .template [.plain '\n' rfl, .plain '\'' rfl],
    .line ['`', '*', '/'] (by decide), .other '\n', .other '\x7d']

/-- The same, but for what stands in the literals and comments. -/
def plainTokens : List Token :=
  [.other 'a', .other '/', .other 'b', .literal .double [],
    .block ['\n'] (by decide), .literal .template [], .line [] (by decide), .other '\n', .other '\x7d']

theorem scrub_mixedTokens : Fit mixedTokens ∧
    scrub (spell mixedTokens) = "a/b\"\"\n\"\"\n\x7d".toList ∧
    calls (String.ofList (spell mixedTokens)) = calls (String.ofList (spell plainTokens)) := by
  have hfit : Fit mixedTokens := by decide
  have hplain : Fit plainTokens := by decide
  obtain ⟨hscrub, hcalls⟩ := scrub_tokens hfit
  refine ⟨hfit, hscrub.trans (by decide), hcalls plainTokens hplain ?_⟩
  have hother : ∀ c, (Token.other c).Like (.other c) := Token.Like.other
  refine .cons (hother _) <| .cons (hother _) <| .cons (hother _) <| .cons (.literal ..) <|
    .cons (.comment trivial trivial (by decide)) <| .cons (.literal ..) <|
    .cons (.comment trivial trivial (by decide)) <| .cons (hother _) <| .cons (hother _) .nil

end ConventionLint.TestLayout
