import Mathlib.Data.List.Infix
import ConventionLint.Module.ObjectType
import ConventionLint.Proofs.Blank

/-! How comments are dropped from the body of an object type. Lines in which all block comments end
are dropped from one by one. -/
namespace ConventionLint

namespace Text

variable {lexeme : List Char → Option Nat} {value : List Char → List Char} {c : Char}
  {r u v : List Char} {n : Nat}

theorem replaceAll_cons (h : lexeme (c :: r) = none) :
    replaceAll lexeme value (c :: r) = c :: replaceAll lexeme value r := by
  simp [replaceAll, replaceFrom, h]

theorem replaceFrom_length (lexeme : List Char → Option Nat) (value : List Char → List Char)
    (u v : List Char) : replaceFrom lexeme value u.length (u ++ v) = replaceAll lexeme value v := by
  induction u with
  | nil => rfl
  | cons c u ih => exact ih

theorem replaceAll_lexeme (h : lexeme (u ++ v) = some u.length) (hu : u ≠ []) :
    replaceAll lexeme value (u ++ v) = value u ++ replaceAll lexeme value v := by
  obtain ⟨c, u, rfl⟩ := List.exists_cons_of_ne_nil hu
  rw [List.cons_append, List.length_cons] at h
  have ht : (c :: (u ++ v)).take (u.length + 1) = c :: u := by simp
  simp only [replaceAll, List.cons_append, replaceFrom, h, ht]
  rw [replaceFrom_length, replaceAll]

/-- Text in which no lexeme starts stays. -/
theorem replaceAll_of_none (h : ∀ s, s ≠ [] → s <:+ u → lexeme s = none) :
    replaceAll lexeme value u = u := by
  induction u with
  | nil => rfl
  | cons c u ih =>
    rw [replaceAll_cons (h _ (List.cons_ne_nil c u) (List.suffix_refl _)), ih]
    intro s hs hsu
    exact h s hs (hsu.trans (List.suffix_cons c u))

/-- A text none of whose lexemes depends on what follows is replaced on its own. -/
theorem replaceFrom_append
    (h : ∀ s, s ≠ [] → s <:+ u → lexeme (s ++ v) = lexeme s ∧ ∀ k ∈ lexeme s, k ≤ s.length)
    (hn : n ≤ u.length) : replaceFrom lexeme value n (u ++ v)
      = replaceFrom lexeme value n u ++ replaceAll lexeme value v := by
  induction u generalizing n with
  | nil =>
    obtain rfl : n = 0 := Nat.le_zero.mp hn
    rfl
  | cons c u ih =>
    have hu : ∀ s, s ≠ [] → s <:+ u → lexeme (s ++ v) = lexeme s ∧ ∀ k ∈ lexeme s, k ≤ s.length :=
      fun s hs hsu => h s hs (hsu.trans (List.suffix_cons c u))
    cases n with
    | succ n => exact ih hu (Nat.le_of_succ_le_succ hn)
    | zero =>
      obtain ⟨hlex, hlen⟩ := h (c :: u) (List.cons_ne_nil c u) (List.suffix_refl _)
      rw [List.cons_append] at hlex
      rw [List.cons_append, replaceFrom, replaceFrom, hlex]
      cases hl : lexeme (c :: u) with
      | none => simp only [ih hu (Nat.zero_le _), List.cons_append]
      | some k =>
        cases k with
        | zero => simp only [ih hu (Nat.zero_le _), List.cons_append]
        | succ k =>
          have hk : k ≤ u.length := Nat.le_of_succ_le_succ (hlen _ (by rw [hl]; rfl))
          have ht : (c :: (u ++ v)).take (k + 1) = (c :: u).take (k + 1) := by
            rw [List.take_succ_cons, List.take_succ_cons, List.take_append_of_le_length hk]
          simp only [ih hu hk, List.append_assoc, ht]

theorem replaceFrom_sublist (lexeme : List Char → Option Nat) (n : Nat) (u : List Char) :
    (replaceFrom lexeme (fun _ => []) n u).Sublist u := by
  induction u generalizing n with
  | nil =>
    cases n <;> exact List.Sublist.refl []
  | cons c u ih =>
    cases n with
    | succ n => exact (ih n).cons c
    | zero =>
      rw [replaceFrom]
      split
      · exact (ih _).cons c
      · exact (ih 0).cons_cons c

end Text

namespace ObjectType

open Text

variable {c : Char} {b cs r t u v : List Char}

theorem lineComment_eq_none (h : ¬ ['/', '/'] <+: cs) : lineComment cs = none := by
  unfold lineComment
  split
  · rename_i r
    exact (h ⟨r, rfl⟩).elim
  · rfl

theorem blockComment_eq_none (h : ¬ ['/', '*'] <+: cs) : blockComment cs = none := by
  unfold blockComment
  split
  · rename_i r
    exact (h ⟨r, rfl⟩).elim
  · rfl

theorem blockEnd_append (h : ¬ ['*', '/'] <:+: t) (v : List Char) :
    blockEnd (t ++ '*' :: '/' :: v) = some (t.length + 2) := by
  induction t with
  | nil => rfl
  | cons c t ih =>
    have ht : ¬ ['*', '/'] <:+: t := fun hi => h (hi.trans (List.suffix_cons c t).isInfix)
    have hstep : blockEnd (c :: (t ++ '*' :: '/' :: v))
        = (blockEnd (t ++ '*' :: '/' :: v)).map (· + 1) := by
      rw [blockEnd]
      rintro x rfl hx
      cases t with
      | nil => cases hx
      | cons d t =>
        cases hx
        exact h ⟨[], t, rfl⟩
    rw [List.cons_append, hstep, ih ht, List.length_cons]
    rfl

theorem replaceAll_blockComment_of_free (h : ¬ ['/', '*'] <:+: cs) :
    replaceAll blockComment (fun _ => []) cs = cs := by
  apply replaceAll_of_none
  intro s _ hs
  exact blockComment_eq_none fun hp => h (hp.isInfix.trans hs.isInfix)

theorem replaceAll_lineComment_of_free (h : ¬ ['/', '/'] <:+: cs) :
    replaceAll lineComment (fun _ => []) cs = cs := by
  apply replaceAll_of_none
  intro s _ hs
  exact lineComment_eq_none fun hp => h (hp.isInfix.trans hs.isInfix)

/-- Where no comment starts there is none to drop. -/
theorem dropComments_of_free (hl : ¬ ['/', '/'] <:+: cs) (hb : ¬ ['/', '*'] <:+: cs) :
    dropComments cs = cs := by
  rw [dropComments, replaceAll_blockComment_of_free hb, replaceAll_lineComment_of_free hl]

theorem not_infix_append {p q : Char} (hu : ¬ [p, q] <:+: u) (hv : ¬ [p, q] <:+: v)
    (h : u.getLast? ≠ some p ∨ v.head? ≠ some q) : ¬ [p, q] <:+: u ++ v := by
  rw [List.infix_append_iff]
  rintro (hi | hi | ⟨x, y, he, hx, hy⟩)
  · exact hu hi
  · exact hv hi
  · rcases x with - | ⟨a, - | ⟨b, x⟩⟩
    · rw [List.nil_append] at he
      exact hv (he ▸ hy.isInfix)
    · obtain ⟨rfl, rfl⟩ : p = a ∧ [q] = y := by simpa using he
      obtain ⟨u', rfl⟩ := hx
      obtain ⟨v', rfl⟩ := hy
      simp at h
    · obtain ⟨rfl, rfl, rfl, -⟩ : p = a ∧ q = b ∧ x = [] ∧ y = [] := by simpa using he
      exact hu hx.isInfix

/-- A text in which all block comments end. -/
inductive Settled : List Char → Prop
  | nil : Settled []
  | skip {c : Char} {r : List Char} (h : ¬ ['/', '*'] <+: c :: r) (hr : Settled r) : Settled (c :: r)
  | comment {t r : List Char} (ht : ¬ ['*', '/'] <:+: t) (hr : Settled r) :
      Settled ('/' :: '*' :: (t ++ '*' :: '/' :: r))

theorem settled_of_free (h : ¬ ['/', '*'] <:+: cs) : Settled cs := by
  induction cs with
  | nil => exact .nil
  | cons c r ih =>
    refine .skip (fun hp => h hp.isInfix) (ih fun hi => h ?_)
    exact hi.trans (List.suffix_cons c r).isInfix

theorem replaceAll_blockComment_comment (h : ¬ ['*', '/'] <:+: t) (v : List Char) :
    replaceAll blockComment (fun _ => []) ('/' :: '*' :: (t ++ '*' :: '/' :: v))
      = replaceAll blockComment (fun _ => []) v := by
  have hl : blockComment (('/' :: '*' :: (t ++ ['*', '/'])) ++ v)
      = some ('/' :: '*' :: (t ++ ['*', '/'])).length := by
    simp [blockComment, blockEnd_append h]
  have hr : replaceAll blockComment (fun _ => []) _ = _ := replaceAll_lexeme hl (by simp)
  simpa using hr

/-- Block comments that end before a line feed do not depend on what follows it. -/
theorem Settled.replaceAll_append (h : Settled u) (v : List Char) :
    replaceAll blockComment (fun _ => []) (u ++ '\n' :: v)
      = replaceAll blockComment (fun _ => []) u
        ++ '\n' :: replaceAll blockComment (fun _ => []) v := by
  induction h with
  | nil => exact replaceAll_cons rfl
  | @skip c r h hr ih =>
    have hfree : ¬ ['/', '*'] <+: c :: (r ++ '\n' :: v) := by
      rintro ⟨x, hx⟩
      cases r with
      | nil => cases hx
      | cons d r =>
        cases hx
        exact h ⟨r, rfl⟩
    rw [List.cons_append, replaceAll_cons (blockComment_eq_none hfree),
      replaceAll_cons (blockComment_eq_none h), ih, List.cons_append]
  | @comment t r ht hr ih =>
    have he : '/' :: '*' :: (t ++ '*' :: '/' :: r) ++ '\n' :: v
        = '/' :: '*' :: (t ++ '*' :: '/' :: (r ++ '\n' :: v)) := by simp
    rw [he, replaceAll_blockComment_comment ht, replaceAll_blockComment_comment ht, ih]

theorem takeWhile_line (t v : List Char) :
    (t ++ '\n' :: v).takeWhile (· ≠ '\n') = t.takeWhile (· ≠ '\n') := by
  induction t with
  | nil => rfl
  | cons c t ih =>
    rw [List.cons_append, List.takeWhile_cons, List.takeWhile_cons, ih]

theorem lineComment_append (hs : cs ≠ []) (v : List Char) :
    lineComment (cs ++ '\n' :: v) = lineComment cs ∧ ∀ k ∈ lineComment cs, k ≤ cs.length := by
  by_cases h : ['/', '/'] <+: cs
  · obtain ⟨t, rfl⟩ := h
    constructor
    · simp only [List.cons_append, List.nil_append, lineComment, takeWhile_line]
    · intro k hk
      have hle : (t.takeWhile (· ≠ '\n')).length ≤ t.length :=
        (List.takeWhile_prefix _).length_le
      have hk' : 2 + (t.takeWhile (· ≠ '\n')).length = k := by simpa [lineComment] using hk
      simp only [List.cons_append, List.nil_append, List.length_cons]
      omega
  · have hfree : ¬ ['/', '/'] <+: cs ++ '\n' :: v := by
      rintro ⟨x, hx⟩
      rcases cs with - | ⟨c, - | ⟨d, r⟩⟩
      · exact hs rfl
      · cases hx
      · cases hx
        exact h ⟨r, rfl⟩
    rw [lineComment_eq_none h, lineComment_eq_none hfree]
    simp

theorem replaceAll_lineComment_append (u v : List Char) :
    replaceAll lineComment (fun _ => []) (u ++ '\n' :: v)
      = replaceAll lineComment (fun _ => []) u
        ++ '\n' :: replaceAll lineComment (fun _ => []) v := by
  have h : replaceAll lineComment (fun _ => []) (u ++ '\n' :: v)
      = replaceAll lineComment (fun _ => []) u
        ++ replaceAll lineComment (fun _ => []) ('\n' :: v) :=
    replaceFrom_append (fun s hs _ => lineComment_append hs v) (Nat.zero_le _)
  rw [h, replaceAll_cons rfl]

/-- What ends in all its block comments has its comments dropped on its own. -/
theorem Settled.dropComments_append (h : Settled u) (v : List Char) :
    dropComments (u ++ '\n' :: v) = dropComments u ++ '\n' :: dropComments v := by
  rw [dropComments, h.replaceAll_append, replaceAll_lineComment_append]
  rfl

/-! Lines that hold one comment. -/

theorem Settled.append_left (hb : AllBlank b) (h : Settled u) : Settled (b ++ u) := by
  induction b with
  | nil => exact h
  | cons c b ih =>
    refine .skip ?_ (ih fun d hd => hb d (List.mem_cons_of_mem c hd))
    rintro ⟨x, hx⟩
    have hc : isBlank c = true := hb c (List.mem_cons_self ..)
    rw [← (List.cons.inj hx).1] at hc
    cases hc

theorem dropComments_append_left (hb : AllBlank b) (u : List Char) :
    dropComments (b ++ u) = b ++ dropComments u := by
  induction b with
  | nil => rfl
  | cons c b ih =>
    have hc : c ≠ '/' := by
      rintro rfl
      cases hb '/' (List.mem_cons_self ..)
    have hfree : ∀ d r, ¬ ['/', d] <+: c :: r := by
      rintro d r ⟨x, hx⟩
      cases hx
      exact hc rfl
    rw [List.cons_append, List.cons_append, ← ih fun d hd => hb d (List.mem_cons_of_mem c hd),
      dropComments, replaceAll_cons (blockComment_eq_none (hfree _ _)),
      replaceAll_cons (lineComment_eq_none (hfree _ _))]
    rfl

/-- A comment of its own line. -/
inductive Comment where
  | line (t : List Char) (h : '\n' ∉ t)
  | block (t : List Char) (h : ¬ ['*', '/'] <:+: t)

/-- The text `// t` or `/* t */`. -/
def Comment.text : Comment → List Char
  | line t _ => '/' :: '/' :: ' ' :: t
  | block t _ => '/' :: '*' :: (' ' :: (t ++ [' ']) ++ ['*', '/'])

theorem not_infix_spaced (h : ¬ ['*', '/'] <:+: t) : ¬ ['*', '/'] <:+: ' ' :: (t ++ [' ']) := by
  have hblank : ¬ ['*', '/'] <:+: [' '] := by decide
  have ht := not_infix_append h hblank (Or.inr (by decide))
  exact not_infix_append (u := [' ']) hblank ht (Or.inl (by decide))

theorem replaceAll_lineComment_line (h : '\n' ∉ t) :
    replaceAll lineComment (fun _ => []) ('/' :: '/' :: t) = [] := by
  have ht : t.takeWhile (· ≠ '\n') = t := by
    apply List.takeWhile_eq_self_iff.mpr
    intro c hc
    apply decide_eq_true
    rintro rfl
    exact h hc
  have hl : lineComment (('/' :: '/' :: t) ++ []) = some ('/' :: '/' :: t).length := by
    simp only [List.append_nil, lineComment, ht, List.length_cons, Nat.add_comm 2]
  have hr : replaceAll lineComment (fun _ => []) _ = _ :=
    replaceAll_lexeme hl (List.cons_ne_nil _ _)
  rw [List.append_nil] at hr
  exact hr

/-- A comment alone is dropped, whatever stands in it. -/
theorem Comment.dropComments_text (c : Comment) : dropComments c.text = [] := by
  cases c with
  | line t ht =>
    have hslash : ¬ ['/', '*'] <+: '/' :: '/' :: ' ' :: t := by
      rintro ⟨x, hx⟩
      cases hx
    have hspace : ¬ ['/', '*'] <+: '/' :: ' ' :: t := by
      rintro ⟨x, hx⟩
      cases hx
    have hblank : ¬ ['/', '*'] <+: ' ' :: t := by
      rintro ⟨x, hx⟩
      cases hx
    have hline : '\n' ∉ ' ' :: replaceAll blockComment (fun _ => []) t := by
      intro hm
      rcases List.mem_cons.mp hm with hm | hm
      · cases hm
      · exact ht ((replaceFrom_sublist blockComment 0 t).subset hm)
    rw [text, dropComments, replaceAll_cons (blockComment_eq_none hslash),
      replaceAll_cons (blockComment_eq_none hspace), replaceAll_cons (blockComment_eq_none hblank)]
    exact replaceAll_lineComment_line hline
  | block t ht =>
    rw [text, dropComments, replaceAll_blockComment_comment (not_infix_spaced ht)]
    rfl

end ObjectType

end ConventionLint
