import ConventionLint.Proofs.JsonValue
import ConventionLint.Report

/-! A report as JSON tells all that is in the report, in ASCII. -/
namespace ConventionLint

open Data

namespace Report

variable {names : Bool}

/-- What a report says, apart from the time it took. -/
structure Contents where
  diagnostics : List Diagnostic
  errors : List String
  rulesEvaluated : Nat
  violations : Nat
  filesScanned : Nat
deriving DecidableEq

def contents (r : Report) : Contents where
  diagnostics := r.diagnostics
  errors := r.errors
  rulesEvaluated := r.rulesEvaluated
  violations := r.diagnostics.length
  filesScanned := r.filesScanned

/-! What a value says, by the names of its fields. -/

def field? (name : String) : Value → Option Value
  | .map entries => Value.lookup name entries
  | _ => none

def text? : Value → Option String
  | .text s => some s
  | _ => none

def count? : Value → Option Nat
  | .number (.int (.ofNat n)) => some n
  | _ => none

def items? : Value → Option (List Value)
  | .list items => some items
  | _ => none

def diagnostic? (v : Value) : Option Diagnostic := do
  return { rule := ← (← field? "rule" v) |> text?
           error := ← (← field? "error" v) |> text?
           file := ← (← field? "file_path" v) |> text? }

def contents? (v : Value) : Option Contents := do
  let summary ← field? "summary" v
  return { diagnostics := ← (← (← field? "diagnostics" v) |> items?).mapM diagnostic?
           errors := ← (← (← field? "errors" v) |> items?).mapM text?
           rulesEvaluated := ← (← field? "rules_evaluated" summary) |> count?
           violations := ← (← field? "violations_count" summary) |> count?
           filesScanned := ← (← field? "files_scanned" summary) |> count? }

theorem mapM_map_of_inverse {α β : Type} {f : α → β} {g : β → Option α} (h : ∀ a, g (f a) = some a)
    (l : List α) : (l.map f).mapM g = some l := by
  induction l with
  | nil => rfl
  | cons a l ih =>
    rw [List.map_cons, List.mapM_cons, h, ih]
    rfl

theorem field?_object (name : String) (fields : List (String × Value)) :
    field? name (object fields) = fields.lookup name := by
  induction fields with
  | nil => rfl
  | cons f fields ih =>
    change (if f.1 = name then some f.2 else field? name (object fields)) = _
    rw [ih, List.lookup_cons]
    by_cases h : f.1 = name
    · rw [if_pos h, beq_iff_eq.mpr h.symm]
    · rw [if_neg h, beq_eq_false_iff_ne.mpr (Ne.symm h)]

theorem diagnostic?_object (d : Diagnostic) : diagnostic? (object
    [("rule", .text d.rule), ("file_path", .text d.file), ("error", .text d.error)]) = some d := by
  unfold diagnostic?
  rw [field?_object, field?_object, field?_object]
  rfl

theorem contents?_toValue (r : Report) : contents? r.toValue = some r.contents := by
  have hdiagnostics := mapM_map_of_inverse diagnostic?_object r.diagnostics
  have htext : ∀ s, text? (.text s) = some s := fun _ => rfl
  have herrors := mapM_map_of_inverse htext r.errors
  have hfields : field? "summary" r.toValue = some (object
        [("rules_evaluated", count r.rulesEvaluated),
         ("violations_count", count r.diagnostics.length),
         ("files_scanned", count r.filesScanned), ("elapsed_ms", .number r.elapsed)]) ∧
      field? "diagnostics" r.toValue = some (.list (r.diagnostics.map fun d => object
        [("rule", .text d.rule), ("file_path", .text d.file), ("error", .text d.error)])) ∧
      field? "errors" r.toValue = some (.list (r.errors.map .text)) := by
    rw [toValue, field?_object, field?_object, field?_object]
    exact ⟨rfl, rfl, rfl⟩
  simp only [contents?, hfields, Option.bind_eq_bind, Option.bind_some, items?, hdiagnostics, herrors,
    field?_object]
  rfl

theorem readsAs_object {fields others : List (String × Value)}
    (h : List.Forall₂ (fun f g => f.1 = g.1 ∧ Json.ReadsAs names f.2 g.2) fields others)
    (hkeys : (others.map Prod.fst).Nodup) : Json.ReadsAs names (object fields) (object others) :=
  Json.readsAs_fields h hkeys

theorem readsAs_list_map {α : Type} {f : α → Value} (h : ∀ a, Json.ReadsAs names (f a) (f a))
    (l : List α) : Json.ReadsAs names (.list (l.map f)) (.list (l.map f)) := by
  refine Json.readsAs_list ?_
  rw [List.forall₂_map_left_iff, List.forall₂_map_right_iff, List.forall₂_same]
  exact fun a _ => h a

theorem readsAs_toValue {r : Report} {n : Number}
    (hn : Json.ReadsAs names (.number r.elapsed) (.number n)) :
    Json.ReadsAs names r.toValue ({ r with elapsed := n } : Report).toValue := by
  have hdiagnostic : ∀ d : Diagnostic, Json.ReadsAs names
      (object [("rule", .text d.rule), ("file_path", .text d.file), ("error", .text d.error)])
      (object [("rule", .text d.rule), ("file_path", .text d.file), ("error", .text d.error)]) := by
    intro d
    refine readsAs_object ?_ (by simp)
    exact .cons ⟨rfl, Json.readsAs_text _⟩ (.cons ⟨rfl, Json.readsAs_text _⟩
      (.cons ⟨rfl, Json.readsAs_text _⟩ .nil))
  have hdiagnostics := readsAs_list_map hdiagnostic r.diagnostics
  have htext : ∀ s, Json.ReadsAs names (.text s) (.text s) := Json.readsAs_text
  have herrors := readsAs_list_map htext r.errors
  refine readsAs_object ?_ (by simp)
  refine .cons ⟨rfl, hdiagnostics⟩ (.cons ⟨rfl, herrors⟩ (.cons ⟨rfl, readsAs_object ?_ (by simp)⟩ .nil))
  exact .cons ⟨rfl, Json.readsAs_int _⟩ (.cons ⟨rfl, Json.readsAs_int _⟩
    (.cons ⟨rfl, Json.readsAs_int _⟩ (.cons ⟨rfl, hn⟩ .nil)))

/-- A report is in ASCII, and a reader of JSON finds in it the diagnostics and the errors in order and
the counts of the summary. A time that is not finite has no text in JSON: then the reader must know the
names of numbers. -/
theorem contents?_parse_toJson (r : Report) :
    (∀ c ∈ r.toJson.toList, c.toNat < 128) ∧
    ∀ names, names = true ∨ r.elapsed.isFinite = true →
      ∃ n, Json.parseWith? names r.toJson = some ({ r with elapsed := n } : Report).toValue ∧
        contents? ({ r with elapsed := n } : Report).toValue = some r.contents := by
  constructor
  · intro c hc
    rw [toJson, Json.render, String.toList_ofList] at hc
    exact Json.ascii_write 0 r.toValue c hc
  · intro names hnames
    obtain ⟨n, hn⟩ := Json.exists_readsAs_number r.elapsed hnames
    exact ⟨n, Json.parseWith?_render (readsAs_toValue hn), contents?_toValue _⟩

/-- A report with a quote, a backslash, a character that controls the line and one of two units. -/
def tricky : Report where
  diagnostics := [⟨"api-file-name", "\"C:\\n\"", "src/api/😀.ts"⟩, ⟨"r", "\x7f\x00", "é"⟩]
  errors := ["", "\r\n\t"]
  rulesEvaluated := 2
  filesScanned := 7
  elapsed := .int 5

theorem contents?_parse_toJson_tricky : tricky.elapsed.isFinite = true ∧
    (∀ c ∈ tricky.toJson.toList, c.toNat < 128) ∧
    ∃ v, Json.parseWith? false tricky.toJson = some v ∧ contents? v = some tricky.contents := by
  have h := contents?_parse_toJson tricky
  obtain ⟨n, hparse, hcontents⟩ := h.2 false (Or.inr rfl)
  exact ⟨rfl, h.1, _, hparse, hcontents⟩

end Report

end ConventionLint
