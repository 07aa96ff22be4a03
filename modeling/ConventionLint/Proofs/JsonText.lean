import ConventionLint.Data.Json.Reader
import ConventionLint.Data.Json.Writer
import ConventionLint.Proofs.Text

/-! The texts and numbers of JSON: every character is read back from what it is written as, and what is
written for a finite number has the form of one. -/
namespace ConventionLint.Data.Json

open Text

/-- What a number does not go on with. -/
def Stops (rest : List Char) : Prop :=
  ∀ c ∈ rest.head?, c.isDigit = false ∧ c ≠ '.' ∧ c ≠ 'e' ∧ c ≠ 'E'

/-- A non-empty run of digits. -/
def Digits (ds : List Char) : Prop := ds ≠ [] ∧ ∀ c ∈ ds, c.isDigit = true

/-- The digits at the front of a number. -/
def Whole (ds : List Char) : Prop := ds = ['0'] ∨ Digits ds ∧ ds.head? ≠ some '0'

/-- What follows the digits at the front of a number: a fraction, a power, both or nothing. -/
inductive Back : List Char → Prop where
  | none : Back []
  | fraction {fs : List Char} : Digits fs → Back ('.' :: fs)
  | power {ps : List Char} (less : Bool) : Digits ps →
      Back ('e' :: (if less then '-' else '+') :: ps)
  | fractionPower {fs ps : List Char} (less : Bool) : Digits fs → Digits ps →
      Back ('.' :: fs ++ 'e' :: (if less then '-' else '+') :: ps)

variable {negative : Bool} {c : Char} {cs ds fs ps back text rest : List Char}

/-! Texts. -/

theorem hexValue?_hexDigit (n : Nat) : hexValue? (hexDigit n) = some (n % 16) := by
  have h : ∀ d : Fin 16, hexValue? (Nat.digitChar d) = some d.val := by decide
  exact h ⟨n % 16, Nat.mod_lt _ (by decide)⟩

theorem unitEscape_eq (n : Nat) : unitEscape n =
    ['\\', 'u', hexDigit (n / 16 / 16 / 16), hexDigit (n / 16 / 16), hexDigit (n / 16),
      hexDigit n] := rfl

/-- Four digits tell a number of 16 bits. -/
theorem unit?_hexDigit {n : Nat} (h : n < 0x10000) :
    unit? (hexDigit (n / 16 / 16 / 16)) (hexDigit (n / 16 / 16)) (hexDigit (n / 16)) (hexDigit n)
      = some n := by
  have hn : (((n / 16 / 16 / 16 % 16) * 16 + n / 16 / 16 % 16) * 16 + n / 16 % 16) * 16 + n % 16
      = n := by omega
  simp only [unit?, hexValue?_hexDigit, Option.bind_eq_bind, Option.bind_some, hn]
  rfl

/-- A unit that is no half of a pair is a character. -/
theorem readChars_unit {n : Nat} (h : n < 0xd800 ∨ 0xe000 ≤ n ∧ n < 0x10000) (r : List Char) :
    readChars (unitEscape n ++ r) = (readChars r).map fun p => (Char.ofNat n :: p.1, p.2) := by
  have hu := unit?_hexDigit (n := n) (by omega)
  have hhigh : (decide (0xd800 ≤ n) && decide (n < 0xdc00)) = false := by
    simp only [Bool.and_eq_false_iff, decide_eq_false_iff_not]
    omega
  have hlow : (decide (0xdc00 ≤ n) && decide (n < 0xe000)) = false := by
    simp only [Bool.and_eq_false_iff, decide_eq_false_iff_not]
    omega
  rw [unitEscape_eq]
  simp only [List.cons_append, List.nil_append]
  rw [readChars, hu]
  simp only [Option.bind_eq_bind, Option.bind_some, hhigh, hlow, Bool.false_eq_true, if_false]
  cases readChars r <;> rfl

/-- Two halves are one character. -/
theorem readChars_pair {high low : Nat} (hh : high < 0x400) (hl : low < 0x400) (r : List Char) :
    readChars (unitEscape (0xd800 + high) ++ (unitEscape (0xdc00 + low) ++ r)) =
      (readChars r).map fun p => (Char.ofNat (0x10000 + high * 0x400 + low) :: p.1, p.2) := by
  have hhigh := unit?_hexDigit (n := 0xd800 + high) (by omega)
  have hlow := unit?_hexDigit (n := 0xdc00 + low) (by omega)
  have hfirst : (decide (0xd800 ≤ 0xd800 + high) && decide (0xd800 + high < 0xdc00)) = true := by
    simp only [Bool.and_eq_true, decide_eq_true_iff]
    omega
  have hsecond : (decide (0xdc00 ≤ 0xdc00 + low) && decide (0xdc00 + low < 0xe000)) = true := by
    simp only [Bool.and_eq_true, decide_eq_true_iff]
    omega
  rw [unitEscape_eq, unitEscape_eq]
  simp only [List.cons_append, List.nil_append]
  rw [readChars, hhigh]
  simp only [Option.bind_eq_bind, Option.bind_some, hfirst, if_true, hlow, hsecond,
    Nat.add_sub_cancel_left]
  cases readChars r <;> rfl

/-- The code of a character is not half of a pair. -/
theorem readChars_charEscape (c : Char) (r : List Char) :
    readChars (charEscape c ++ r) = (readChars r).map fun p => (c :: p.1, p.2) := by
  have hv : c.toNat < 0xd800 ∨ 0xdfff < c.toNat ∧ c.toNat < 0x110000 := c.valid
  unfold charEscape
  dsimp only
  split
  · rw [readChars_unit (by omega), Char.ofNat_toNat]
  · rename_i hn
    have hc : 0x10000 + (c.toNat - 0x10000) / 0x400 * 0x400 + (c.toNat - 0x10000) % 0x400
        = c.toNat := by omega
    rw [List.append_assoc, readChars_pair (by omega) (by omega), hc, Char.ofNat_toNat]

theorem readChars_short {e : Char} (he : e ≠ 'u') (hc : shortEscape? e = some c) (r : List Char) :
    readChars ('\\' :: e :: r) = (readChars r).map fun p => (c :: p.1, p.2) := by
  rw [readChars.eq_3 e r fun _ _ _ _ _ h _ => he h, hc]
  simp only [Option.bind_eq_bind, Option.bind_some]
  cases readChars r <;> rfl

theorem readChars_plain (hq : c ≠ '"') (hb : c ≠ '\\') (hs : ¬ c < ' ') (r : List Char) :
    readChars (c :: r) = (readChars r).map fun p => (c :: p.1, p.2) := by
  rw [readChars.eq_4 c r hq (fun _ _ _ _ _ h _ => hb h) (fun _ _ h _ => hb h), if_neg hs]
  cases readChars r <;> rfl

/-- A character is written as a short escape, by its code or as it is. -/
theorem writeChar_cases (ascii : Bool) (c : Char) :
    (∃ e : Char, e ≠ 'u' ∧ e.toNat < 128 ∧ shortEscape? e = some c ∧ writeChar ascii c = ['\\', e]) ∨
      writeChar ascii c = charEscape c ∨
      (writeChar ascii c = [c] ∧ c ≠ '"' ∧ c ≠ '\\' ∧ ¬ c < ' ' ∧ ¬ (ascii && '~' < c) = true) := by
  have short : ∀ e : Char, e ≠ 'u' → e.toNat < 128 → shortEscape? e = some c →
      ∃ e' : Char, e' ≠ 'u' ∧ e'.toNat < 128 ∧ shortEscape? e' = some c ∧ ['\\', e] = ['\\', e'] :=
    fun e hu ha hc => ⟨e, hu, ha, hc, rfl⟩
  unfold writeChar
  split
  · exact Or.inl (short '"' (by decide) (by decide) (by subst c; rfl))
  split
  · exact Or.inl (short '\\' (by decide) (by decide) (by subst c; rfl))
  split
  · exact Or.inl (short 'n' (by decide) (by decide) (by subst c; rfl))
  split
  · exact Or.inl (short 'r' (by decide) (by decide) (by subst c; rfl))
  split
  · exact Or.inl (short 't' (by decide) (by decide) (by subst c; rfl))
  split
  · exact Or.inl (short 'f' (by decide) (by decide) (by subst c; rfl))
  split
  · exact Or.inl (short 'b' (by decide) (by decide) (by subst c; rfl))
  split
  · exact Or.inr (Or.inl rfl)
  · rename_i hq hb _ _ _ _ _ hs
    rw [Bool.or_eq_true, not_or, decide_eq_true_iff] at hs
    exact Or.inr (Or.inr ⟨rfl, hq, hb, hs⟩)

/-- Every character is read back from what it is written as. -/
theorem readChars_writeChar (ascii : Bool) (c : Char) (r : List Char) :
    readChars (writeChar ascii c ++ r) = (readChars r).map fun p => (c :: p.1, p.2) := by
  obtain ⟨e, hu, -, hc, hw⟩ | hw | ⟨hw, hq, hb, hs, -⟩ := writeChar_cases ascii c <;> rw [hw]
  · exact readChars_short hu hc r
  · exact readChars_charEscape c r
  · exact readChars_plain hq hb hs r

theorem readChars_text (ascii : Bool) (cs rest : List Char) :
    readChars (cs.flatMap (writeChar ascii) ++ '"' :: rest) = some (cs, rest) := by
  induction cs with
  | nil => rfl
  | cons c cs ih =>
    rw [List.flatMap_cons, List.append_assoc, readChars_writeChar, ih]
    rfl

/-! Numbers. -/

theorem Whole.digits (h : Whole ds) : Digits ds := by
  rcases h with rfl | h
  · exact ⟨by simp, by simp⟩
  · exact h.1

theorem Digits.append (h : Digits ds) (hf : ∀ c ∈ fs, c.isDigit = true) : Digits (ds ++ fs) := by
  refine ⟨by simp [h.1], fun c hc => ?_⟩
  rcases List.mem_append.mp hc with hc | hc
  · exact h.2 c hc
  · exact hf c hc

theorem digits?_append (h : Digits ds) (hr : ∀ c ∈ rest.head?, c.isDigit = false) :
    digits? (ds ++ rest) = some (ds, rest) := by
  have ht : rest.takeWhile Char.isDigit = [] := by
    cases rest with
    | nil => rfl
    | cons c r => simp [hr c rfl]
  have hd : rest.dropWhile Char.isDigit = rest := by
    cases rest with
    | nil => rfl
    | cons c r => simp [hr c rfl]
  unfold digits?
  rw [List.takeWhile_append_of_pos h.2, List.dropWhile_append_of_pos h.2, ht, hd, List.append_nil]
  cases ds with
  | nil => exact (h.1 rfl).elim
  | cons c ds => rfl

theorem whole?_append (h : Whole ds) (hr : ∀ c ∈ rest.head?, c.isDigit = false) :
    whole? (ds ++ rest) = some (ds, rest) := by
  rcases h with rfl | ⟨hd, hz⟩
  · rfl
  · obtain ⟨c, ds, rfl⟩ := List.exists_cons_of_ne_nil hd.1
    have hc : c ≠ '0' := by simpa using hz
    rw [List.cons_append, whole?.eq_2 _ fun r hr => hc (List.cons.inj hr).1]
    exact digits?_append hd hr

theorem fraction?_none (h : ∀ c ∈ rest.head?, c ≠ '.') : fraction? rest = none := by
  unfold fraction?
  split
  · exact (h '.' rfl rfl).elim
  · rfl

theorem power?_none (h : ∀ c ∈ rest.head?, c ≠ 'e' ∧ c ≠ 'E') : power? rest = none := by
  cases rest with
  | nil => rfl
  | cons c r =>
    obtain ⟨he, hE⟩ := h c rfl
    simp [power?, he, hE]

theorem power?_append (less : Bool) (h : Digits ps) (hr : Stops rest) :
    power? ('e' :: (if less then '-' else '+') :: ps ++ rest) =
      some (if less then -(digitsValue ps : Int) else digitsValue ps, rest) := by
  have hd := digits?_append h fun c hc => (hr c hc).1
  cases less <;> simp [power?, hd]

/-- The sign and the digits at the front of a number are told from what follows them. -/
theorem readNumber_eq (h : Whole ds) (hr : ∀ c ∈ rest.head?, c.isDigit = false) :
    readNumber ((sign negative).toList ++ (ds ++ rest)) =
      match fraction? rest, power? rest with
      | none, none =>
        some (.int (if negative then -(digitsValue ds : Int) else digitsValue ds), rest)
      | none, some (p, r) => some (Number.ofDecimal negative (digitsValue ds) p, r)
      | some (fs, r), _ =>
        let (p, r) := (power? r).getD (0, r)
        some (Number.ofDecimal negative (digitsValue (ds ++ fs)) (p - fs.length), r) := by
  have hw := whole?_append h hr
  cases negative with
  | true =>
    change readNumber ('-' :: (ds ++ rest)) = _
    simp only [readNumber, hw, Option.bind_eq_bind, Option.bind_some]
    rfl
  | false =>
    obtain ⟨c, ds, rfl⟩ := List.exists_cons_of_ne_nil h.digits.1
    have hc : c ≠ '-' := by
      rintro rfl
      exact absurd (h.digits.2 '-' (List.mem_cons_self ..)) (by decide)
    change readNumber (c :: ds ++ rest) = _
    unfold readNumber
    split
    rename_i neg cs heq
    split at heq
    · rename_i hm
      exact (hc (List.cons.inj hm).1).elim
    · cases heq
      rw [hw]
      rfl

theorem readNumber_int (h : Whole ds) (hr : Stops rest) :
    readNumber ((sign negative).toList ++ (ds ++ rest)) =
      some (.int (if negative then -(digitsValue ds : Int) else digitsValue ds), rest) := by
  rw [readNumber_eq h fun c hc => (hr c hc).1, fraction?_none fun c hc => (hr c hc).2.1,
    power?_none fun c hc => (hr c hc).2.2]

/-- A text in the form of a number is read as the same number, whatever it stands before. -/
theorem exists_readNumber (hw : Whole ds) (hb : Back back) (negative : Bool) :
    ∃ n, ∀ rest, Stops rest →
      readNumber ((sign negative).toList ++ (ds ++ back) ++ rest) = some (n, rest) := by
  cases hb with
  | none =>
    refine ⟨.int (if negative then -(digitsValue ds : Int) else digitsValue ds), fun rest hr => ?_⟩
    rw [List.append_nil, List.append_assoc]
    exact readNumber_int hw hr
  | @fraction fs hf =>
    refine ⟨Number.ofDecimal negative (digitsValue (ds ++ fs)) (0 - fs.length), fun rest hr => ?_⟩
    have hx : fraction? ('.' :: fs ++ rest) = some (fs, rest) :=
      digits?_append hf fun c hc => (hr c hc).1
    rw [List.append_assoc, List.append_assoc, readNumber_eq hw (by simp), hx]
    dsimp only
    rw [power?_none fun c hc => (hr c hc).2.2]
    rfl
  | @power ps less hp =>
    refine ⟨Number.ofDecimal negative (digitsValue ds)
      (if less then -(digitsValue ps : Int) else digitsValue ps), fun rest hr => ?_⟩
    rw [List.append_assoc, List.append_assoc, readNumber_eq hw (by simp), fraction?_none (by simp),
      power?_append less hp hr]
  | @fractionPower fs ps less hf hp =>
    refine ⟨Number.ofDecimal negative (digitsValue (ds ++ fs))
      ((if less then -(digitsValue ps : Int) else digitsValue ps) - fs.length), fun rest hr => ?_⟩
    have hx : fraction? ('.' :: fs ++ ('e' :: (if less then '-' else '+') :: ps ++ rest))
        = some (fs, 'e' :: (if less then '-' else '+') :: ps ++ rest) :=
      digits?_append hf (by simp)
    rw [List.append_assoc, List.append_assoc, List.append_assoc, readNumber_eq hw (by simp), hx]
    dsimp only
    rw [power?_append less hp hr]
    rfl

theorem toList_toString_nat (n : Nat) : (toString n).toList = Nat.toDigits 10 n := by
  rw [Nat.toString_eq_ofList_toDigits, String.toList_ofList]

theorem digits_toDigits (n : Nat) : Digits (Nat.toDigits 10 n) :=
  ⟨Nat.toDigits_ne_nil, fun _ hc => Nat.isDigit_of_mem_toDigits (by decide) (by decide) hc⟩

/-- A number that is not zero does not start with a zero. -/
theorem head?_toDigits_ne {n : Nat} (hn : n ≠ 0) : (Nat.toDigits 10 n).head? ≠ some '0' := by
  induction n using Nat.strongRecOn with
  | ind n ih =>
    rw [Nat.toDigits_eq_if (by decide)]
    split
    · rename_i hlt
      have hd : ∀ d : Fin 10, d.val ≠ 0 → Nat.digitChar d ≠ '0' := by decide
      simpa using hd ⟨n, hlt⟩ hn
    · rename_i hge
      have h := ih (n / 10) (by omega) (by omega)
      rwa [List.head?_append, Option.or_of_isSome]
      simp

theorem whole_toDigits (n : Nat) : Whole (Nat.toDigits 10 n) := by
  by_cases hn : n = 0
  · subst hn
    exact Or.inl rfl
  · exact Or.inr ⟨digits_toDigits n, head?_toDigits_ne hn⟩

theorem digitsValue_toDigits (n : Nat) : digitsValue (Nat.toDigits 10 n) = n := by
  have h : Nat.ofDigitChars 10 (Nat.toDigits 10 n) 0 = n := Nat.ofDigitChars_ten_toDigits
  rw [Nat.ofDigitChars_eq_foldl] at h
  simpa only [digitsValue, Nat.mul_comm] using h

theorem isDigit_of_mem_zeros {n : Nat} (h : c ∈ (zeros n).toList) : c.isDigit = true := by
  rw [zeros, String.toList_ofList] at h
  rw [(List.mem_replicate.mp h).2]
  rfl

theorem toList_powerText (e : Int) : ∃ less : Bool, ∃ ps, Digits ps ∧
    (powerText e).toList = 'e' :: (if less then '-' else '+') :: ps := by
  unfold powerText
  dsimp only
  refine ⟨decide (e < 0), (if (toString e.natAbs).length < 2 then "0" else "").toList
    ++ (toString e.natAbs).toList, ?_, ?_⟩
  · rw [toList_toString_nat]
    split
    · exact Digits.append ⟨by simp, by simp⟩ (digits_toDigits _).2
    · exact digits_toDigits _
  · rw [String.toList_append, String.toList_append, List.append_assoc]
    by_cases he : e < 0 <;> simp only [he, if_true, if_false, decide_true, decide_false] <;> simp

/-- A text of the form of a number without a sign. -/
def IsNumeral (text : List Char) : Prop := ∃ ds back, text = ds ++ back ∧ Whole ds ∧ Back back

/-- The digits of a number other than zero. -/
structure Significant (c : Char) (cs : List Char) : Prop where
  digits : Digits (c :: cs)
  ne_zero : c ≠ '0'

namespace Significant

variable {s : String}

theorem whole (h : Significant c cs) (hds : ∀ a ∈ ds, a.isDigit = true) : Whole (c :: ds) := by
  refine Or.inr ⟨⟨by simp, ?_⟩, by simpa using h.ne_zero⟩
  exact List.forall_mem_cons.mpr ⟨h.digits.2 c (List.mem_cons_self ..), hds⟩

theorem tail_digits (h : Significant c cs) : ∀ a ∈ cs, a.isDigit = true :=
  fun a ha => h.digits.2 a (List.mem_cons_of_mem _ ha)

theorem power (h : Significant c cs) (hs : s.toList = c :: cs) (e : Int) :
    IsNumeral ((s.take 1).toString ++ (if (s.drop 1).toString.isEmpty then "" else "." ++
      (s.drop 1).toString) ++ powerText e).toList := by
  obtain ⟨less, ps, hps, hp⟩ := toList_powerText e
  have htail : (s.drop 1).toString.toList = cs := by simp [hs]
  generalize (s.drop 1).toString = tail at htail ⊢
  rw [String.toList_append, String.toList_append, hp]
  split
  · exact ⟨[c], _, by simp [hs], h.whole (by simp), .power less hps⟩
  · rename_i hn
    have hne : cs ≠ [] := by
      rintro rfl
      exact hn (by simpa using htail)
    exact ⟨[c], _, by simp [hs, htail], h.whole (by simp), .fractionPower less ⟨hne, h.tail_digits⟩ hps⟩

theorem fraction (h : Significant c cs) (hs : s.toList = c :: cs) (n : Nat) :
    IsNumeral ("0." ++ zeros n ++ s).toList := by
  refine ⟨['0'], '.' :: (zeros n ++ s).toList, by simp, Or.inl rfl,
    .fraction ⟨by simp [hs], fun a ha => ?_⟩⟩
  rw [String.toList_append, List.mem_append, hs] at ha
  exact ha.elim isDigit_of_mem_zeros (h.digits.2 a)

theorem integer (h : Significant c cs) (hs : s.toList = c :: cs) (n : Nat) :
    IsNumeral (s ++ zeros n ++ ".0").toList := by
  refine ⟨c :: (cs ++ (zeros n).toList), ['.', '0'], by simp [hs], h.whole fun a ha => ?_,
    .fraction ⟨by simp, by simp⟩⟩
  exact (List.mem_append.mp ha).elim (h.tail_digits a) isDigit_of_mem_zeros

theorem mixed (h : Significant c cs) (hs : s.toList = c :: cs) {n : Nat} (hpos : 0 < n)
    (hlong : n < s.length) :
    IsNumeral ((s.take n).toString ++ "." ++ (s.drop n).toString).toList := by
  obtain ⟨k, rfl⟩ : ∃ k, n = k + 1 := Nat.exists_eq_succ_of_ne_zero (by omega)
  have hlen : s.length = cs.length + 1 := by rw [← String.length_toList, hs, List.length_cons]
  refine ⟨c :: cs.take k, '.' :: cs.drop k, by simp [hs],
    h.whole fun a ha => h.tail_digits a (List.mem_of_mem_take ha),
    .fraction ⟨?_, fun a ha => h.tail_digits a (List.mem_of_mem_drop ha)⟩⟩
  rw [Ne, List.drop_eq_nil_iff]
  omega

end Significant

theorem exists_significant {n : Nat} (h : n ≠ 0) :
    ∃ c cs, (toString n).toList = c :: cs ∧ Significant c cs := by
  have hdigits := digits_toDigits n
  have hhead := head?_toDigits_ne h
  obtain ⟨c, cs, hcs⟩ := List.exists_cons_of_ne_nil hdigits.1
  rw [hcs] at hdigits hhead
  rw [toList_toString_nat]
  exact ⟨c, cs, hcs, hdigits, by simpa using hhead⟩

/-- The text of a decimal has the form of a number. -/
theorem toList_decimal (d : Decimal) : IsNumeral d.text.toList := by
  unfold Decimal.text
  dsimp only
  split
  · exact ⟨['0'], ['.', '0'], rfl, Or.inl rfl, .fraction ⟨by simp, by simp⟩⟩
  rename_i hz
  obtain ⟨c, cs, hs, h⟩ := exists_significant hz
  split
  · exact h.power hs _
  split
  · exact h.fraction hs _
  split
  · exact h.integer hs _
  · exact h.mixed hs (by omega) (by omega)

theorem toList_toString_int (n : Int) :
    (toString n).toList = (sign (decide (n < 0))).toList ++ Nat.toDigits 10 n.natAbs := by
  rw [Int.toString_eq_repr, Int.repr_eq_if]
  split
  · rename_i hn
    rw [decide_eq_false (by omega), show n.toNat = n.natAbs by omega]
    exact toList_toString_nat _
  · rename_i hn
    rw [decide_eq_true (by omega), String.toList_append, show (-n).toNat = n.natAbs by omega]
    exact congrArg _ (toList_toString_nat _)

end ConventionLint.Data.Json
