import ConventionLint.Proofs.Balance
import ConventionLint.Proofs.MemberScan

/-! Where an alias is declared. The search for a declaration is said by the text that it passes over,
so that it does not matter what stands behind the brace it leads to. -/
namespace ConventionLint.ObjectType

open Text

variable {name cs u v x y r r' : List Char} {exported : Bool} {before : Option Char} {c d : Char}

/-- A text of characters that names have. -/
structure IsIdentifier (name : List Char) : Prop where
  ne_nil : name ≠ []
  chars : ∀ c ∈ name, isNameChar c = true

/-- What may stand between an alias and its equals sign: blanks, with type parameters or without. -/
def IsParameters (p : List Char) : Prop :=
  AllBlank p ∨ ∃ b g b', p = b ++ '<' :: (g ++ '>' :: b') ∧ AllBlank b ∧ '=' ∉ g ∧ AllBlank b'

/-- The text `type name = {`, with any blanks and type parameters. The last character of the name is
one of words, since the name has to end where it does. -/
def Opens (name x : List Char) : Prop :=
  ∃ c b p b', x = "type".toList ++ c :: (b ++ (name ++ (p ++ '=' :: (b' ++ ['{'])))) ∧
    isBlank c = true ∧ AllBlank b ∧ IsParameters p ∧ AllBlank b' ∧ name.getLast?.any isWord = true

/-- The start of a declaration up to its brace, which `before` precedes. -/
inductive Declares (name : List Char) : (exported : Bool) → (before : Option Char) → List Char → Prop
  | exported {c : Char} {b x : List Char} {exported : Bool} {before : Option Char}
      (hc : isBlank c = true) (hb : AllBlank b) (hx : Opens name x)
      (hl : exported = true ∨ before.any isNameChar = false) :
      Declares name exported before ("export".toList ++ c :: (b ++ x))
  | plain {x : List Char} {before : Option Char} (hx : Opens name x)
      (hl : before.any isNameChar = false) : Declares name false before x

theorem isNameChar_of_isBlank (h : isBlank c = true) : isNameChar c = false := by
  have hd : c ≠ '$' := by
    rintro rfl
    cases h
  simp [isNameChar, isWord_of_isBlank h, hd]

theorem IsIdentifier.not_isBlank (h : IsIdentifier name) (hc : c ∈ name) : isBlank c = false := by
  apply Bool.eq_false_iff.mpr
  intro hb
  have hn := h.chars c hc
  rw [isNameChar_of_isBlank hb] at hn
  cases hn

theorem IsIdentifier.exists_cons (h : IsIdentifier name) :
    ∃ c r, name = c :: r ∧ isBlank c = false := by
  obtain ⟨c, r, rfl⟩ := List.exists_cons_of_ne_nil h.ne_nil
  exact ⟨c, r, rfl, h.not_isBlank (List.mem_cons_self ..)⟩

theorem IsIdentifier.trimLeft_append (h : IsIdentifier name) (v : List Char) :
    trimLeft (name ++ v) = name ++ v := by
  obtain ⟨c, r, rfl, hc⟩ := h.exists_cons
  exact trimLeft_cons hc (r ++ v)

/-! From behind the name into the braces. -/

theorem isNameChar_head? {p : List Char} (hp : IsParameters p) :
    (p ++ '=' :: y).head?.any isNameChar = false := by
  rcases hp with hp | ⟨b, g, b', rfl, hb, -, -⟩
  · cases p with
    | nil => rfl
    | cons c p => exact isNameChar_of_isBlank (hp c (List.mem_cons_self ..))
  · cases b with
    | nil => rfl
    | cons c b => exact isNameChar_of_isBlank (hb c (List.mem_cons_self ..))

theorem isWord_head? {p : List Char} (hp : IsParameters p) :
    (p ++ '=' :: y).head?.any isWord = false := by
  have h := isNameChar_head? hp (y := y)
  cases hc : (p ++ '=' :: y).head? with
  | none => rfl
  | some c =>
    rw [hc, Option.any_some, isNameChar, Bool.or_eq_false_iff] at h
    exact h.1

theorem isBoundary_eq {after : Option Char} (h : after.any isWord = false) :
    isBoundary before after = before.any isWord := by
  unfold isBoundary
  rw [h]
  cases before.any isWord <;> rfl

theorem intoBraces?_eq (last : Option Char) (cs : List Char) : intoBraces? last cs =
    if isBoundary last cs.head? then
      (afterParameters? (trimLeft cs)).bind fun r =>
        (after? ['='] (trimLeft r)).bind fun r => after? ['{'] (trimLeft r)
    else none := by
  unfold intoBraces?
  cases isBoundary last cs.head? <;> rfl

/-- The last character of a text that is not blank. -/
theorem head?_dropWhile_reverse : (cs.reverse.dropWhile isBlank).head? = some c ↔
    isBlank c = false ∧ ∃ g b, cs = g ++ c :: b ∧ AllBlank b := by
  constructor
  · intro h
    obtain ⟨b, hb, he⟩ := exists_trimLeft cs.reverse
    obtain ⟨q, hq⟩ : ∃ q, trimLeft cs.reverse = c :: q := List.head?_eq_some_iff.mp h
    refine ⟨isBlank_of_trimLeft hq, q.reverse, b.reverse, ?_, hb.reverse⟩
    rw [hq] at he
    simpa using congrArg List.reverse he
  · rintro ⟨hc, g, b, rfl, hb⟩
    have ht : trimLeft (b.reverse ++ c :: g.reverse) = c :: g.reverse := by
      rw [trimLeft_append hb.reverse, trimLeft_cons hc]
    rw [trimLeft] at ht
    simp [ht]

theorem afterParameters?_angle : afterParameters? ('<' :: cs) = some r ↔
    ∃ g b, cs = g ++ '>' :: (b ++ r) ∧ '=' ∉ g ∧ AllBlank b ∧ (r = [] ∨ ∃ y, r = '=' :: y) := by
  have hcs : cs = cs.takeWhile (· ≠ '=') ++ cs.dropWhile (· ≠ '=') :=
    List.takeWhile_append_dropWhile.symm
  rw [afterParameters?]
  simp only [Option.ite_none_right_eq_some, Option.some.injEq, head?_dropWhile_reverse]
  constructor
  · rintro ⟨⟨-, g, b, hin, hb⟩, rfl⟩
    refine ⟨g, b, ?_, ?_, hb, ?_⟩
    · conv => lhs; rw [hcs, hin]
      simp
    · intro hg
      have hm : '=' ∈ cs.takeWhile (· ≠ '=') := by
        rw [hin]
        exact List.mem_append_left _ hg
      simpa using List.mem_takeWhile_imp hm
    · cases hd : cs.dropWhile (· ≠ '=') with
      | nil => exact Or.inl rfl
      | cons d y =>
        have hh : d = '=' := by simpa using head_of_dropWhile hd
        exact Or.inr ⟨y, by rw [hh]⟩
  · rintro ⟨g, b, rfl, hg, hb, hr⟩
    have hin : ∀ c ∈ g ++ '>' :: b, decide (c ≠ '=') = true := by
      intro c hc
      apply decide_eq_true
      rintro rfl
      simp only [List.mem_append, List.mem_cons] at hc
      rcases hc with hc | hc | hc
      · exact hg hc
      · cases hc
      · exact hb.not_mem (by rfl) hc
    have he : g ++ '>' :: (b ++ r) = (g ++ '>' :: b) ++ r := by simp
    have htake : r.takeWhile (· ≠ '=') = [] := by
      obtain rfl | ⟨y, rfl⟩ := hr
      · rfl
      · simp
    have hdrop : r.dropWhile (· ≠ '=') = r := by
      obtain rfl | ⟨y, rfl⟩ := hr
      · rfl
      · simp
    rw [he, List.takeWhile_append_of_pos hin, List.dropWhile_append_of_pos hin, htake, hdrop,
      List.append_nil]
    exact ⟨⟨rfl, g, b, rfl, hb⟩, rfl⟩

theorem exists_parameters {z : List Char} (hb : AllBlank u)
    (h : afterParameters? (trimLeft cs) = some (u ++ '=' :: z)) :
    ∃ p, cs = p ++ '=' :: z ∧ IsParameters p := by
  obtain ⟨b₀, hb₀, he⟩ := exists_trimLeft cs
  cases hcs : trimLeft cs with
  | nil =>
    rw [hcs] at h
    simp [afterParameters?] at h
  | cons c y =>
    rw [hcs] at h he
    by_cases hc : c = '<'
    · subst hc
      obtain ⟨g, b, rfl, hg, hb', -⟩ := afterParameters?_angle.mp h
      refine ⟨b₀ ++ '<' :: (g ++ '>' :: (b ++ u)), ?_, ?_⟩
      · rw [he]
        simp
      · exact Or.inr ⟨b₀, g, b ++ u, rfl, hb₀, hg, hb'.append hb⟩
    · have hy : c :: y = u ++ '=' :: z := by simpa [afterParameters?, hc] using h
      refine ⟨b₀ ++ u, ?_, Or.inl (hb₀.append hb)⟩
      rw [he, hy, List.append_assoc]

theorem intoBraces?_eq_some_iff {last : Option Char} : intoBraces? last cs = some r ↔
    last.any isWord = true ∧
      ∃ p b, cs = p ++ '=' :: (b ++ '{' :: r) ∧ IsParameters p ∧ AllBlank b := by
  rw [intoBraces?_eq]
  constructor
  · intro h
    obtain ⟨hbound, h⟩ := Option.ite_none_right_eq_some.mp h
    obtain ⟨r₁, h₁, h⟩ := Option.bind_eq_some_iff.mp h
    obtain ⟨r₂, h₂, h₃⟩ := Option.bind_eq_some_iff.mp h
    rw [after?_eq_some_iff] at h₂ h₃
    obtain ⟨b₁, hb₁, he₁⟩ := exists_trimLeft r₁
    obtain ⟨b₂, hb₂, he₂⟩ := exists_trimLeft r₂
    rw [h₃] at he₂
    rw [h₂, he₂] at he₁
    obtain ⟨p, rfl, hp⟩ := exists_parameters hb₁ (he₁ ▸ h₁)
    rw [isBoundary_eq (isWord_head? hp)] at hbound
    exact ⟨hbound, p, b₂, rfl, hp, hb₂⟩
  · rintro ⟨hl, p, b, rfl, hp, hb⟩
    have hbound : isBoundary last (p ++ '=' :: (b ++ '{' :: r)).head? = true := by
      rwa [isBoundary_eq (isWord_head? hp)]
    have heq : (after? ['='] ('=' :: (b ++ '{' :: r))).bind (fun r => after? ['{'] (trimLeft r))
        = some r := by
      simp [after?, trimLeft_append hb, trimLeft_cons (show isBlank '{' = false from rfl)]
    have hsign : trimLeft ('=' :: (b ++ '{' :: r)) = '=' :: (b ++ '{' :: r) :=
      trimLeft_cons (by rfl) _
    rw [if_pos hbound]
    rcases hp with hp | ⟨b₀, g, b₁, rfl, hb₀, hg, hb₁⟩
    · have hnone : afterParameters? ('=' :: (b ++ '{' :: r)) = some ('=' :: (b ++ '{' :: r)) := rfl
      rw [trimLeft_append hp, hsign, hnone, Option.bind_some, hsign, heq]
    · have hangle : trimLeft ('<' :: (g ++ '>' :: b₁) ++ '=' :: (b ++ '{' :: r))
          = '<' :: (g ++ '>' :: (b₁ ++ '=' :: (b ++ '{' :: r))) := by
        rw [List.cons_append, trimLeft_cons (by rfl)]
        simp
      rw [List.append_assoc, trimLeft_append hb₀, hangle,
        afterParameters?_angle.mpr ⟨g, b₁, rfl, hg, hb₁, Or.inr ⟨_, rfl⟩⟩]
      rw [Option.bind_some, hsign, heq]

/-! From the start of a declaration into its braces. -/

theorem mem_afterBlanks : x ∈ afterBlanks cs ↔
    ∃ c b, cs = c :: (b ++ x) ∧ isBlank c = true ∧ AllBlank b := by
  induction cs with
  | nil => simp [afterBlanks]
  | cons d cs ih =>
    rw [afterBlanks]
    cases hd : isBlank d with
    | false =>
      simp only [Bool.false_eq_true, if_false, List.not_mem_nil, false_iff]
      rintro ⟨c, b, he, hc, -⟩
      cases he
      rw [hd] at hc
      cases hc
    | true =>
      simp only [if_true, List.mem_append, List.mem_singleton, ih]
      constructor
      · rintro (⟨c, b, rfl, hc, hb⟩ | rfl)
        · refine ⟨d, c :: b, rfl, hd, ?_⟩
          intro a ha
          rcases List.mem_cons.mp ha with rfl | ha
          · exact hc
          · exact hb a ha
        · exact ⟨d, [], rfl, hd, allBlank_nil⟩
      · rintro ⟨c, b, he, -, hb⟩
        cases b with
        | nil =>
          cases he
          exact Or.inr rfl
        | cons a b =>
          cases he
          refine Or.inl ⟨a, b, rfl, hb a (List.mem_cons_self ..), ?_⟩
          exact fun e he => hb e (List.mem_cons_of_mem a he)

/-- What starts with a character that is not blank is found behind all blanks only. -/
theorem findSome?_afterBlanks {f : List Char → Option (List Char)}
    (hf : ∀ x r, f x = some r → ∃ c y, x = c :: y ∧ isBlank c = false) :
    (afterBlanks cs).findSome? f = some r ↔
      ∃ c b x, cs = c :: (b ++ x) ∧ isBlank c = true ∧ AllBlank b ∧ f x = some r := by
  constructor
  · intro h
    obtain ⟨x, hx, hr⟩ := List.exists_of_findSome?_eq_some h
    obtain ⟨c, b, he, hc, hb⟩ := mem_afterBlanks.mp hx
    exact ⟨c, b, x, he, hc, hb, hr⟩
  · rintro ⟨c, b, x, rfl, hc, hb, hr⟩
    have hx : x ∈ afterBlanks (c :: (b ++ x)) := mem_afterBlanks.mpr ⟨c, b, rfl, hc, hb⟩
    cases hs : (afterBlanks (c :: (b ++ x))).findSome? f with
    | none =>
      rw [List.findSome?_eq_none_iff.mp hs x hx] at hr
      cases hr
    | some r' =>
      obtain ⟨x', hx', hr'⟩ := List.exists_of_findSome?_eq_some hs
      obtain ⟨c', b', he, -, hb'⟩ := mem_afterBlanks.mp hx'
      obtain ⟨a, y, rfl, ha⟩ := hf x r hr
      obtain ⟨a', y', rfl, ha'⟩ := hf x' r' hr'
      have ht := congrArg trimLeft (List.cons.inj he).2
      rw [trimLeft_append hb, trimLeft_append hb', trimLeft_cons ha, trimLeft_cons ha'] at ht
      rw [ht, hr'] at hr
      exact hr

theorem intoAlias?_eq_some_iff (hn : IsIdentifier name) : intoAlias? name cs = some r ↔
    ∃ x, Opens name x ∧ cs = x ++ r := by
  obtain ⟨a, n, ha, hblank⟩ := hn.exists_cons
  have hlast : (name.getLast? <|> some ' ') = name.getLast? := by
    cases hl : name.getLast? with
    | none => exact (hn.ne_nil (List.getLast?_eq_none_iff.mp hl)).elim
    | some c => rfl
  have hf : ∀ x r, ((after? name x).bind (intoBraces? name.getLast?)) = some r →
      ∃ c y, x = c :: y ∧ isBlank c = false := by
    intro x r h
    obtain ⟨y, hy, -⟩ := Option.bind_eq_some_iff.mp h
    rw [after?_eq_some_iff, ha] at hy
    exact ⟨a, n ++ y, hy, hblank⟩
  unfold intoAlias?
  rw [hlast]
  simp only [Option.bind_eq_bind, Option.bind_eq_some_iff (x := after? _ _),
    findSome?_afterBlanks hf, intoBraces?_eq_some_iff, after?_eq_some_iff]
  constructor
  · rintro ⟨s, rfl, c, b, x, rfl, hc, hb, y, rfl, hl, p, b', rfl, hp, hb'⟩
    refine ⟨_, ⟨c, b, p, b', rfl, hc, hb, hp, hb', hl⟩, ?_⟩
    simp
  · rintro ⟨x, ⟨c, b, p, b', rfl, hc, hb, hp, hb', hl⟩, rfl⟩
    refine ⟨c :: (b ++ (name ++ (p ++ '=' :: (b' ++ '{' :: r)))), by simp, c, b, _, rfl, hc, hb,
      p ++ '=' :: (b' ++ '{' :: r), rfl, hl, p, b', rfl, hp, hb'⟩

theorem Opens.exists_cons (h : Opens name x) : ∃ y, x = 't' :: 'y' :: y := by
  obtain ⟨c, b, p, b', rfl, -⟩ := h
  exact ⟨_, rfl⟩

theorem intoExport?_eq_some_iff (hn : IsIdentifier name) :
    (afterWord? "export" cs).bind (intoAlias? name) = some r ↔
      ∃ c b x, cs = "export".toList ++ c :: (b ++ x) ++ r ∧ isBlank c = true ∧ AllBlank b ∧
        Opens name x := by
  simp only [Option.bind_eq_some_iff, afterWord?_eq_some_iff, intoAlias?_eq_some_iff hn]
  constructor
  · rintro ⟨s, ⟨c, y, rfl, hc, rfl⟩, x, hx, hy⟩
    obtain ⟨b, hb, he⟩ := exists_trimLeft y
    refine ⟨c, b, x, ?_, hc, hb, hx⟩
    rw [he, hy]
    simp
  · rintro ⟨c, b, x, rfl, hc, hb, hx⟩
    refine ⟨x ++ r, ⟨c, b ++ (x ++ r), by simp, hc, ?_⟩, x, hx, rfl⟩
    obtain ⟨y, rfl⟩ := hx.exists_cons
    rw [trimLeft_append hb, List.cons_append, trimLeft_cons (by rfl)]

theorem intoDeclaration?_eq_some_iff (hn : IsIdentifier name) :
    intoDeclaration? name exported before cs = some r ↔
      ∃ x, Declares name exported before x ∧ cs = x ++ r := by
  have hexport : (afterWord? "export" cs).bind (intoAlias? name) = some r ↔ _ :=
    intoExport?_eq_some_iff hn
  unfold intoDeclaration?
  cases exported with
  | true =>
    rw [if_pos rfl, hexport]
    constructor
    · rintro ⟨c, b, x, rfl, hc, hb, hx⟩
      exact ⟨_, .exported hc hb hx (Or.inl rfl), rfl⟩
    · rintro ⟨x, hx, rfl⟩
      cases hx with
      | @exported c b x _ _ hc hb hx => exact ⟨c, b, x, rfl, hc, hb, hx⟩
  | false =>
    rw [if_neg (by simp)]
    cases hl : before.any isNameChar with
    | true =>
      rw [if_pos rfl]
      constructor
      · intro h
        cases h
      · rintro ⟨x, hx, -⟩
        cases hx with
        | exported hc hb hx hl' => simp [hl] at hl'
        | plain hx hl' => simp [hl] at hl'
    | false =>
      rw [if_neg (by simp), Option.orElse_eq_orElse, Option.orElse_eq_or, Option.or_eq_some_iff,
        hexport, intoAlias?_eq_some_iff hn]
      constructor
      · rintro (⟨c, b, x, rfl, hc, hb, hx⟩ | ⟨-, x, hx, rfl⟩)
        · exact ⟨_, .exported hc hb hx (Or.inr hl), rfl⟩
        · exact ⟨x, .plain hx hl, rfl⟩
      · rintro ⟨x, hx, rfl⟩
        cases hx with
        | @exported c b x _ _ hc hb hx => exact Or.inl ⟨c, b, x, rfl, hc, hb, hx⟩
        | plain hx =>
          refine Or.inr ⟨?_, x, hx, rfl⟩
          -- a declaration that starts with `type` does not start with `export`
          obtain ⟨y, rfl⟩ := hx.exists_cons
          rfl

/-! A declaration ends with the first equals sign and the brace behind it. -/

theorem Opens.shape (hn : IsIdentifier name) (h : Opens name x) :
    ∃ k b, x = k ++ '=' :: (b ++ ['{']) ∧ '=' ∉ k ∧ AllBlank b := by
  obtain ⟨c, b, p, b', rfl, hc, hb, hp, hb', -⟩ := h
  refine ⟨"type".toList ++ c :: (b ++ (name ++ p)), b', by simp, ?_, hb'⟩
  have hname : '=' ∉ name := by
    intro hm
    exact absurd (hn.chars _ hm) (by decide)
  have hparam : '=' ∉ p := by
    rcases hp with hp | ⟨b₀, g, b₁, rfl, hb₀, hg, hb₁⟩
    · exact hp.not_mem (by rfl)
    · simp [hb₀.not_mem (show isBlank '=' = false from rfl), hg,
        hb₁.not_mem (show isBlank '=' = false from rfl)]
  have hsign : '=' ≠ c := by
    rintro rfl
    cases hc
  simp [hsign, hb.not_mem (show isBlank '=' = false from rfl), hname, hparam]

theorem Declares.shape (hn : IsIdentifier name) (h : Declares name exported before x) :
    ∃ k b, x = k ++ '=' :: (b ++ ['{']) ∧ '=' ∉ k ∧ AllBlank b := by
  cases h with
  | @exported c b x _ _ hc hb hx =>
    obtain ⟨k, b', rfl, hk, hb'⟩ := hx.shape hn
    refine ⟨"export".toList ++ c :: (b ++ k), b', by simp, ?_, hb'⟩
    have hsign : '=' ≠ c := by
      rintro rfl
      cases hc
    simp [hsign, hb.not_mem (show isBlank '=' = false from rfl), hk]
  | plain hx => exact hx.shape hn

theorem Declares.ne_nil (h : Declares name exported before x) : x ≠ [] := by
  cases h with
  | exported => simp
  | plain hx =>
    obtain ⟨y, rfl⟩ := hx.exists_cons
    simp

/-- The brace of a declaration ends it. -/
theorem eq_nil_of_shape {a b k b' w : List Char} (hk : '=' ∉ k) (hb : AllBlank b')
    (h : k ++ '=' :: (b' ++ ['{']) = a ++ '=' :: (b ++ '{' :: w)) : w = [] := by
  obtain rfl | ⟨w', d, rfl⟩ := List.eq_nil_or_concat w
  · rfl
  · have hc : (k ++ '=' :: b') ++ ['{'] = ((a ++ '=' :: b) ++ '{' :: w') ++ [d] := by simpa using h
    have he := (List.append_inj' hc rfl).1
    rcases List.append_eq_append_iff.mp he with ⟨y, hy, hz⟩ | ⟨y, hy, -⟩
    · have hm : '{' ∈ '=' :: b' := by
        rw [hz]
        simp
      rcases List.mem_cons.mp hm with hm | hm
      · cases hm
      · exact (hb.not_mem (by rfl) hm).elim
    · refine (hk ?_).elim
      rw [hy]
      simp

/-! The search takes the first declaration, whatever follows it. -/

theorem search?_cons (name : List Char) (exported : Bool) (before : Option Char) (c : Char)
    (r : List Char) : search? name exported before (c :: r) =
      (intoDeclaration? name exported before (c :: r)).or (search? name exported (some c) r) := by
  rw [search?, Option.orElse_eq_orElse, Option.orElse_eq_or]

theorem exists_of_search? (hn : IsIdentifier name) (h : search? name exported before cs = some r) :
    ∃ u b x, cs = u ++ (x ++ r) ∧ Declares name exported b x := by
  induction cs generalizing before with
  | nil => cases h
  | cons c cs ih =>
    rw [search?_cons, Option.or_eq_some_iff] at h
    rcases h with h | ⟨-, h⟩
    · obtain ⟨x, hx, he⟩ := (intoDeclaration?_eq_some_iff hn).mp h
      exact ⟨[], before, x, he, hx⟩
    · obtain ⟨u, b, x, rfl, hx⟩ := ih h
      exact ⟨c :: u, b, x, rfl, hx⟩

/-- What stands behind the brace of the first declaration plays no part in finding it. -/
theorem search?_append (hn : IsIdentifier name) (h : search? name exported before (u ++ r) = some r)
    (r' : List Char) : search? name exported before (u ++ r') = some r' := by
  induction u generalizing before with
  | nil =>
    obtain ⟨u, b, x, he, hx⟩ := exists_of_search? hn h
    have hl := congrArg List.length he
    have hp := List.length_pos_iff.mpr hx.ne_nil
    simp only [List.nil_append, List.length_append] at hl
    omega
  | cons c u ih =>
    rw [List.cons_append, search?_cons, Option.or_eq_some_iff] at h ⊢
    rcases h with h | ⟨hnone, h⟩
    · obtain ⟨x, hx, he⟩ := (intoDeclaration?_eq_some_iff hn).mp h
      have hu : c :: u = x := List.append_cancel_right he
      exact Or.inl ((intoDeclaration?_eq_some_iff hn).mpr ⟨x, hx, by rw [← hu, List.cons_append]⟩)
    · refine Or.inr ⟨?_, ih h⟩
      -- another declaration would end before the brace, and be found in the first text too
      rw [Option.eq_none_iff_forall_ne_some]
      intro r₂ h₂
      obtain ⟨x₂, hx₂, he₂⟩ := (intoDeclaration?_eq_some_iff hn).mp h₂
      obtain ⟨a, d, x, he, hx⟩ := exists_of_search? hn h
      have hu : u = a ++ x := by
        rw [← List.append_assoc] at he
        exact List.append_cancel_right he
      have hprefix : ∃ w, c :: u = x₂ ++ w := by
        rw [← List.cons_append] at he₂
        rcases List.append_eq_append_iff.mp he₂ with ⟨w, hw, -⟩ | ⟨w, hw, -⟩
        · obtain ⟨k, b, rfl, -, -⟩ := hx.shape hn
          obtain ⟨k₂, b₂, rfl, hk₂, hb₂⟩ := hx₂.shape hn
          have hs : k₂ ++ '=' :: (b₂ ++ ['{']) = (c :: (a ++ k)) ++ '=' :: (b ++ '{' :: w) := by
            rw [hw, hu]
            simp
          have hwn := eq_nil_of_shape hk₂ hb₂ hs
          exact ⟨[], by rw [hw, hwn]; simp⟩
        · exact ⟨w, hw⟩
      obtain ⟨w, hw⟩ := hprefix
      have hfound : intoDeclaration? name exported before (c :: (u ++ r)) = some (w ++ r) := by
        refine (intoDeclaration?_eq_some_iff hn).mpr ⟨x₂, hx₂, ?_⟩
        rw [← List.cons_append, hw, List.append_assoc]
      rw [hnone] at hfound
      cases hfound

theorem search?_of_declares (hn : IsIdentifier name) (h : Declares name exported before x)
    (r : List Char) : search? name exported before (x ++ r) = some r := by
  obtain ⟨c, y, hx⟩ := List.exists_cons_of_ne_nil h.ne_nil
  have hd : intoDeclaration? name exported before (x ++ r) = some r :=
    (intoDeclaration?_eq_some_iff hn).mpr ⟨x, h, rfl⟩
  rw [hx, List.cons_append] at hd ⊢
  rw [search?_cons, hd, Option.some_or]

/-! What stands in the braces. -/

/-- The object type behind the brace of a declaration. -/
def read? (typeName : String) (r : List Char) : Option ObjectType :=
  (Bracket.brace.closeFrom 0 1 r).map fun n =>
    ⟨typeName, (splitMembers (dropComments (r.take n))).filterMap member?⟩

theorem find?_eq_bind (text typeName : String) (exported : Bool) : find? text typeName exported =
    (search? typeName.toList exported none text.toList).bind (read? typeName) := by
  unfold find? read?
  cases search? typeName.toList exported none text.toList with
  | none => rfl
  | some r => cases h : Bracket.brace.closeFrom 0 1 r <;> simp [h]

theorem read?_of_isBalanced {body : List Char} (h : Bracket.brace.IsBalanced body)
    (typeName : String) (z : List Char) : read? typeName (body ++ '}' :: z)
      = some ⟨typeName, (splitMembers (dropComments body)).filterMap member?⟩ := by
  have hclose : Bracket.brace.closeFrom 0 1 (body ++ '}' :: z) = some body.length :=
    Bracket.closeFrom_one_eq_some_iff.mpr ⟨body, z, rfl, rfl, h⟩
  rw [read?, hclose, Option.map_some, List.take_left]

/-! Text in which no declaration starts. -/

/-- No declaration of the name starts within `u` when `v` follows. -/
def Quiet (name : List Char) (exported : Bool) (u v : List Char) : Prop :=
  ∀ s, s ≠ [] → s <:+ u → ∀ before x r, Declares name exported before x → s ++ v ≠ x ++ r

theorem Quiet.of_suffix {w : List Char} (h : Quiet name exported u v) (hw : w <:+ u) :
    Quiet name exported w v := by
  intro s hs hsw
  exact h s hs (hsw.trans hw)

theorem search?_skip (hn : IsIdentifier name)
    (h : ∀ before x r, Declares name exported before x → c :: cs ≠ x ++ r) :
    search? name exported before (c :: cs) = search? name exported (some c) cs := by
  have hnone : intoDeclaration? name exported before (c :: cs) = none := by
    rw [Option.eq_none_iff_forall_ne_some]
    intro r hr
    obtain ⟨x, hx, he⟩ := (intoDeclaration?_eq_some_iff hn).mp hr
    exact h before x r hx he
  rw [search?_cons, hnone, Option.none_or]

theorem search?_of_quiet (hn : IsIdentifier name) (h : Quiet name exported (u ++ [c]) v) :
    search? name exported before (u ++ c :: v) = search? name exported (some c) v := by
  induction u generalizing before with
  | nil => exact search?_skip hn (h [c] (by simp) (List.suffix_refl _))
  | cons d u ih =>
    have hd := h (d :: (u ++ [c])) (by simp) (List.suffix_refl _)
    have he : d :: (u ++ [c]) ++ v = d :: (u ++ c :: v) := by simp
    rw [he] at hd
    rw [List.cons_append, search?_skip hn hd]
    exact ih (h.of_suffix (List.suffix_cons d _))

theorem quiet_nil : Quiet name exported [] v := by
  intro s hs hsu
  exact (hs (List.suffix_nil.mp hsu)).elim

theorem Quiet.append {w : List Char} (hu : Quiet name exported u (v ++ w))
    (hv : Quiet name exported v w) : Quiet name exported (u ++ v) w := by
  rintro s hs ⟨a, ha⟩ before x r hx he
  rcases List.append_eq_append_iff.mp ha with ⟨s', hu', rfl⟩ | ⟨a', -, hv'⟩
  · by_cases hn : s' = []
    · subst hn
      exact hv v (by simpa using hs) (List.suffix_refl v) before x r hx he
    · refine hu s' hn ⟨a, hu'.symm⟩ before x r hx ?_
      rw [← List.append_assoc, he]
  · exact hv s hs ⟨a', hv'.symm⟩ before x r hx he

/-- Whether two characters are the first of a declaration. -/
def isStart (c d : Char) : Bool := c = 't' && d = 'y' || c = 'e' && d = 'x'

theorem Declares.exists_cons (h : Declares name exported before x) :
    ∃ c d y, x = c :: d :: y ∧ isStart c d = true := by
  cases h with
  | exported => exact ⟨'e', 'x', _, rfl, rfl⟩
  | plain hx =>
    obtain ⟨y, rfl⟩ := hx.exists_cons
    exact ⟨'t', 'y', y, rfl, rfl⟩

theorem quiet_singleton (h : ∀ d ∈ v.head?, isStart c d = false) : Quiet name exported [c] v := by
  rintro s hs hsu before x r hx he
  obtain ⟨a, d, y, rfl, hstart⟩ := hx.exists_cons
  have hsc : s = [c] := by
    rcases List.suffix_cons_iff.mp hsu with rfl | hsu
    · rfl
    · exact (hs (List.suffix_nil.mp hsu)).elim
  subst hsc
  obtain ⟨rfl, hv⟩ : c = a ∧ v = d :: (y ++ r) := by simpa using he
  rw [h d (by simp [hv])] at hstart
  cases hstart

/-- Whether no declaration starts in a text, whatever follows: no two characters are the first of
one, nor is the last character and another. -/
def isCalm : List Char → Bool
  | [] => true
  | [c] => c ≠ 't' && c ≠ 'e'
  | c :: d :: r => !isStart c d && isCalm (d :: r)

theorem quiet_of_isCalm (h : isCalm u = true) : Quiet name exported u v := by
  induction u with
  | nil => exact quiet_nil
  | cons c u ih =>
    cases u with
    | nil =>
      apply quiet_singleton
      intro d _
      simp only [isCalm, Bool.and_eq_true, decide_eq_true_eq] at h
      simp [isStart, h.1, h.2]
    | cons d u =>
      simp only [isCalm, Bool.and_eq_true, Bool.not_eq_true'] at h
      have hc : Quiet name exported [c] (d :: u ++ v) := by
        apply quiet_singleton
        intro e he
        cases he
        exact h.1
      exact hc.append (ih h.2)

/-- Blanks and characters of names. -/
def IsWordy (w : List Char) : Prop := ∀ c ∈ w, isBlank c = true ∨ isNameChar c = true

theorem Declares.parts (h : Declares name exported before x) :
    ∃ w c b z, x = w ++ ("type".toList ++ c :: (b ++ (name ++ z))) ∧ IsWordy w ∧
      isBlank c = true ∧ AllBlank b := by
  cases h with
  | @exported c b x _ _ hc hb hx =>
    obtain ⟨c', b', p, b'', rfl, hc', hb', -⟩ := hx
    refine ⟨"export".toList ++ c :: b, c', b', p ++ '=' :: (b'' ++ ['{']), by simp, ?_, hc', hb'⟩
    intro a ha
    rcases List.mem_append.mp ha with ha | ha
    · exact Or.inr (List.all_eq_true.mp (by decide : "export".toList.all isNameChar = true) a ha)
    · rcases List.mem_cons.mp ha with rfl | ha
      · exact Or.inl hc
      · exact Or.inl (hb a ha)
  | plain hx =>
    obtain ⟨c, b, p, b', rfl, hc, hb, -⟩ := hx
    refine ⟨[], c, b, p ++ '=' :: (b' ++ ['{']), by simp, ?_, hc, hb⟩
    intro a ha
    cases ha

theorem exists_head_of_wordy {w z : List Char} (hw : IsWordy w) (hc : isNameChar c = true) :
    ∃ a y, trimLeft (w ++ c :: z) = a :: y ∧ isNameChar a = true := by
  induction w with
  | nil =>
    have hb : isBlank c = false := by
      apply Bool.eq_false_iff.mpr
      intro hb
      rw [isNameChar_of_isBlank hb] at hc
      cases hc
    exact ⟨c, z, trimLeft_cons hb z, hc⟩
  | cons a w ih =>
    cases ha : isBlank a with
    | true =>
      obtain ⟨a', y, hy, ha'⟩ := ih fun e he => hw e (List.mem_cons_of_mem a he)
      refine ⟨a', y, ?_, ha'⟩
      rw [← hy, trimLeft, List.cons_append, List.dropWhile_cons_of_pos ha]
      rfl
    | false =>
      refine ⟨a, w ++ c :: z, trimLeft_cons ha _, ?_⟩
      rcases hw a (List.mem_cons_self ..) with h | h
      · rw [ha] at h
        cases h
      · exact h

/-- A text whose first character that is not blank is none of names. -/
def Halts (v : List Char) : Prop :=
  ∃ b d r, v = b ++ d :: r ∧ AllBlank b ∧ isBlank d = false ∧ isNameChar d = false

/-- No text halts that starts with blanks and characters of names. -/
theorem Halts.ne_append {w z : List Char} (h : Halts v) (hw : IsWordy w) (hc : isNameChar c = true) :
    v ≠ w ++ c :: z := by
  obtain ⟨b, d, r, rfl, hb, hd, hd'⟩ := h
  intro he
  obtain ⟨a, y, hy, ha⟩ := exists_head_of_wordy hw hc (z := z)
  rw [← he, trimLeft_append hb, trimLeft_cons hd] at hy
  cases hy
  rw [hd'] at ha
  cases ha

/-- A text without `type` in front of a blank is quiet up to a character that no name has. -/
theorem quiet_of_halts (hn : IsIdentifier name)
    (hu : ∀ c, isBlank c = true → ¬ "type".toList ++ [c] <:+: u) (hv : Halts v) :
    Quiet name exported u v := by
  rintro s hs hsu before x r hx he
  obtain ⟨w, c, b', z, rfl, hw, hc, hb'⟩ := hx.parts
  rw [List.append_assoc] at he
  rcases List.append_eq_append_iff.mp he with ⟨a, ha, hv'⟩ | ⟨a, rfl, hv'⟩
  · -- the word `type` starts behind the text
    refine hv.ne_append (w := a) (c := 't') ?_ (by decide) hv'
    intro e hm
    refine hw e ?_
    rw [ha]
    exact List.mem_append_right s hm
  · -- it starts in the text, and the blank behind it stands there too or behind the text
    obtain ⟨e, n, rfl⟩ := List.exists_cons_of_ne_nil hn.ne_nil
    have hword : ("type".toList ++ [c]) ++ (b' ++ (e :: n ++ z) ++ r) = a ++ v := by
      rw [← hv']
      simp
    rcases List.append_eq_append_iff.mp hword with ⟨t, rfl, -⟩ | ⟨t, ht, hvt⟩
    · apply hu c hc
      exact (List.infix_append' [] _ _).trans ((List.suffix_append w _).trans hsu).isInfix
    · refine hv.ne_append (w := t ++ b') (c := e) ?_ (hn.chars e (List.mem_cons_self ..))
        (z := n ++ z ++ r) ?_
      · intro f hf
        rcases List.mem_append.mp hf with hf | hf
        · have hm : f ∈ "type".toList ++ [c] := by
            rw [ht]
            exact List.mem_append_right a hf
          rcases List.mem_append.mp hm with hm | hm
          · exact Or.inr (List.all_eq_true.mp (by decide : "type".toList.all isNameChar = true) f hm)
          · rw [List.mem_singleton.mp hm]
            exact Or.inl hc
        · exact Or.inl (hb' f hf)
      · rw [hvt]
        simp

end ConventionLint.ObjectType
