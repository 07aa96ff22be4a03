import ConventionLint.Data.Json.Reader
import ConventionLint.Module.Construction
import ConventionLint.Module.Import
import ConventionLint.Proofs.Nodes

/-! What a string literal stands for: units of 16 bits, with its escapes read. The text of its
fragments alone is its value only if there are none. -/
namespace ConventionLint

open Source

namespace Text

/-- The units for a code point; past the first plane they are two. -/
def codeUnits (n : Nat) : List Nat :=
  if n < 0x10000 then [n]
  else [0xd800 + (n - 0x10000) / 0x400, 0xdc00 + (n - 0x10000) % 0x400]

def units (cs : List Char) : List Nat := cs.flatMap fun c => codeUnits c.toNat

theorem units_append (cs ds : List Char) : units (cs ++ ds) = units cs ++ units ds :=
  List.flatMap_append

theorem codeUnits_ne_nil (n : Nat) : codeUnits n ≠ [] := by
  unfold codeUnits
  split <;> simp

/-- No character is half of a pair. -/
theorem toNat_lt_or_le (c : Char) : c.toNat < 0xd800 ∨ 0xe000 ≤ c.toNat ∧ c.toNat < 0x110000 := by
  rcases c.valid with h | ⟨h, h'⟩
  · exact Or.inl h
  · exact Or.inr ⟨h, h'⟩

/-- The units of a character tell where they end. -/
theorem codeUnits_append_isPrefix {c d : Char} {us vs : List Nat}
    (h : codeUnits c.toNat ++ us <+: codeUnits d.toNat ++ vs) : c = d ∧ us <+: vs := by
  have hc := toNat_lt_or_le c
  have hd := toNat_lt_or_le d
  rw [← Char.toNat_inj]
  unfold codeUnits at h
  split at h <;> split at h <;>
    simp only [List.cons_append, List.nil_append, List.cons_prefix_cons] at h
  · exact h
  · omega
  · omega
  · exact ⟨by omega, h.2.2⟩

/-- Texts are compared by their units. -/
theorem units_isPrefix_iff {cs ds : List Char} : units cs <+: units ds ↔ cs <+: ds := by
  constructor
  · intro h
    induction cs generalizing ds with
    | nil => exact List.nil_prefix
    | cons c cs ih =>
      cases ds with
      | nil => exact absurd (List.append_eq_nil_iff.mp (List.prefix_nil.mp h)).1 (codeUnits_ne_nil _)
      | cons d ds =>
        obtain ⟨rfl, hrest⟩ := codeUnits_append_isPrefix h
        exact List.cons_prefix_cons.mpr ⟨rfl, ih hrest⟩
  · rintro ⟨es, rfl⟩
    exact ⟨units es, (units_append cs es).symm⟩

theorem units_injective : Function.Injective units := by
  intro cs ds h
  have hle : cs <+: ds := units_isPrefix_iff.mp (h ▸ List.prefix_refl _)
  have hge : ds <+: cs := units_isPrefix_iff.mp (h ▸ List.prefix_refl _)
  exact hle.eq_of_length (Nat.le_antisymm hle.length_le hge.length_le)

/-- Marks around a text are dropped with those at its ends. -/
theorem trimBoth_marked {p : Char → Bool} {q : Char} (hq : p q = true) (cs : List Char) :
    trimBoth p (q :: (cs ++ [q])) = trimBoth p cs := by
  unfold trimBoth
  rw [List.dropWhile_cons_of_pos hq, List.dropWhile_append]
  split
  · rename_i hall
    rw [List.isEmpty_iff.mp hall, List.dropWhile_cons_of_pos hq]
    rfl
  · rw [List.reverse_append, List.reverse_singleton, List.singleton_append,
      List.dropWhile_cons_of_pos hq]

/-! Escapes, by what follows the backslash. -/

def digitsIn (base : Nat) (cs : List Char) : Nat :=
  cs.foldl (fun n c => n * base + (Data.Json.hexValue? c).getD 0) 0

/-- What a letter behind a backslash stands for. -/
def controlEscapes : List (Char × Nat) :=
  [('b', 0x08), ('t', 0x09), ('n', 0x0a), ('v', 0x0b), ('f', 0x0c), ('r', 0x0d)]

/-- Octal codes end before they exceed a byte. -/
def octalWidth (first : Char) : Nat := if first < '4' then 3 else 2

/-- The value of an escape: a code, a control, nothing for the end of a line, or what is written. -/
def escapeUnits : List Char → List Nat
  | 'x' :: digits => codeUnits (digitsIn 16 digits)
  | 'u' :: digits => codeUnits (digitsIn 16 (digits.filter isHexDigit))
  | '\r' :: '\n' :: rest => units rest
  | c :: rest =>
    if isOctalDigit c then
      codeUnits (digitsIn 8 ((c :: rest).take (octalWidth c))) ++ units ((c :: rest).drop (octalWidth c))
    else if endsLine c then units rest
    else ((controlEscapes.lookup c).map ([·])).getD (codeUnits c.toNat) ++ units rest
  | [] => []

end Text

namespace Module

open Text

variable {m : Module} {n s : Node}

/-- What a part of a string adds to its value. -/
def partUnits (m : Module) (part : Node) : List Nat :=
  match part.kind? with
  | some .fragment => units (part.span.cut m.text)
  | some .escape => escapeUnits (part.span.cut m.text).tail
  | _ => []

/-- The value of a string literal. -/
def literal? (m : Module) (n : Node) : Option (List Nat) :=
  if n.kind? = some .string then some (n.namedChildren.flatMap m.partUnits) else none

/-- A string literal is written without escapes. -/
def isUnescaped (n : Node) : Bool := n.namedChildren.all fun c => c.kind? ≠ some .escape

/-- Without escapes all of the value comes from fragments. -/
theorem flatMap_partUnits {parts : List Node} (h : ∀ c ∈ parts, c.kind? ≠ some .escape) :
    parts.flatMap m.partUnits =
      units (String.join ((parts.filter fun c => c.kind? = some .fragment).map m.textOf)).toList := by
  induction parts with
  | nil => rfl
  | cons c parts ih =>
    have hc := h c (List.mem_cons_self ..)
    rw [List.flatMap_cons, ih fun c hc => h c (List.mem_cons_of_mem _ hc)]
    by_cases hk : c.kind? = some .fragment
    · have hpart : m.partUnits c = units (m.textOf c).toList := by simp [partUnits, hk, textOf]
      rw [hpart, List.filter_cons_of_pos (by simpa using hk), List.map_cons, String.join_cons,
        String.toList_append, units_append]
    · have hpart : m.partUnits c = [] := by
        unfold partUnits
        split <;> simp_all
      rw [hpart, List.filter_cons_of_neg (by simpa using hk), List.nil_append]

/-- Without escapes the text of the fragments is the value. -/
theorem literal?_eq (h : isUnescaped n = true) :
    m.literal? n = (m.plainString n).map fun text => units text.toList := by
  unfold literal? plainString
  split
  · rw [Option.map_some, flatMap_partUnits fun c hc => by simpa using List.all_eq_true.mp h c hc]
  · rfl

/-! Paths of modules. They are read from the text of a literal, without the marks around it. -/

def importStatements (m : Module) : List Node :=
  m.root.namedChildren.filter fun n => n.kind? = some .importStatement

/-- A statement imports from the module at a path. -/
def ImportsFrom (m : Module) (n : Node) (path : List Char) : Prop :=
  ∃ s, n.child? .module = some s ∧ m.literal? s = some (units path)

def isMark (c : Char) : Bool := c = '\'' || c = '"' || c = '`'

/-- A string literal is its value between two marks, and has none at the ends of its value. -/
def isVerbatim (m : Module) (s : Node) : Bool :=
  isUnescaped s && (m.plainString s).any fun text =>
    trimBoth isMark text.toList = text.toList &&
      ['\'', '"'].any fun q => s.span.cut m.text = q :: (text.toList ++ [q])

/-- Every import names its module by a literal that is its own value. -/
def spellsImports (m : Module) : Bool :=
  m.importStatements.all fun n => (n.child? .module).any m.isVerbatim

theorem importsFrom_iff (hs : (n.child? .module).any m.isVerbatim = true) {path : List Char} :
    m.ImportsFrom n path ↔ (m.importOf n).module.toList = path := by
  obtain ⟨s, hs, hv⟩ := (Option.any_eq_true _ _).mp hs
  obtain ⟨hplain, hv⟩ := Bool.and_eq_true_iff.mp hv
  obtain ⟨text, htext, hv⟩ := (Option.any_eq_true _ _).mp hv
  obtain ⟨htrim, hcut⟩ := Bool.and_eq_true_iff.mp hv
  obtain ⟨q, hq, hcut⟩ := List.any_eq_true.mp hcut
  have hmark : isMark q = true := by
    simp only [List.mem_cons, List.not_mem_nil, or_false] at hq
    rcases hq with rfl | rfl <;> rfl
  have hmodule : (m.importOf n).module.toList = text.toList := by
    have hread : (m.importOf n).module = String.ofList (trimBoth isMark
        (((n.child? .module).map fun s => s.span.cut m.text).getD [])) := rfl
    rw [hread, hs, Option.map_some, Option.getD_some, of_decide_eq_true hcut,
      trimBoth_marked hmark, of_decide_eq_true htrim, String.toList_ofList]
  have hvalue : m.literal? s = some (units text.toList) := by
    rw [literal?_eq hplain, htext, Option.map_some]
  rw [hmodule]
  constructor
  · rintro ⟨s', hs', hpath⟩
    cases hs.symm.trans hs'
    exact units_injective (Option.some.inj (hvalue.symm.trans hpath))
  · rintro rfl
    exact ⟨s, hs, hvalue⟩

end Module

end ConventionLint
