import ConventionLint.Module.Import
import ConventionLint.Proofs.Pruning
import ConventionLint.Proofs.Result

/-! What is known of a module does not depend on its comments, but for those that come first where
the first named node is taken: in a wrapper, in the type of a parameter or a result, and among
arguments. -/
namespace ConventionLint

open Source

namespace Module

open Source.Node

variable {m : Module} {lead : Bool} {n f : Node}

/-- The module with its tree pruned and its text as it was. -/
def prune (lead : Bool) (m : Module) : Module := ⟨m.text, m.root.prune lead⟩

/-- The module without its comments. -/
def uncommented (m : Module) : Module := m.prune false

/-- The module without its comments but those that are taken for what a node holds. -/
def tidied (m : Module) : Module := m.prune true

/-- Two modules of which the same is known. -/
structure AnswersAs (m m' : Module) : Prop where
  defaultExport : m.defaultExport = m'.defaultExport
  namedFunctions : m.namedFunctions = m'.namedFunctions
  exportedVariables : m.exportedVariables = m'.exportedVariables
  imports : m.imports = m'.imports
  constructions : m.constructions = m'.constructions
  constructionsOf : ∀ constructor, m.constructionsOf constructor = m'.constructionsOf constructor
  defaultConstruction : m.defaultConstruction = m'.defaultConstruction

@[simp] theorem textOf_prune : (m.prune lead).textOf (n.prune lead) = m.textOf n := by
  rw [textOf, span_prune]
  rfl

theorem text_child?_prune (n : Node) (r : Role) :
    ((n.prune lead).child? r).map (m.prune lead).textOf = (n.child? r).map m.textOf := by
  rw [child?_prune, Option.map_map]
  congr 1
  funext c
  exact textOf_prune

/-! Functions. -/

theorem ascribed_eq (m : Module) (n : Node) : m.ascribed n =
    match n.first? with
    | some t => some (m.textOf t)
    | none => m.ascribed (.comment n.span) := by
  unfold ascribed first?
  cases n.namedChildren <;> rfl

theorem ascribed_prune (h : n.Fits lead) (ho : n.opens = true) :
    (m.prune lead).ascribed (n.prune lead) = m.ascribed n := by
  rw [ascribed_eq, ascribed_eq m n, first?_prune h ho, span_prune]
  cases n.first? with
  | none => rfl
  | some t => simp

/-- The type that is ascribed to a part of a node. -/
theorem ascribed_child?_prune {r : Role} (h : n.Fits lead) (hr : r ∈ [.type, .returns, .arguments]) :
    ((n.prune lead).child? r).bind (m.prune lead).ascribed = (n.child? r).bind m.ascribed := by
  rw [child?_prune]
  cases hc : n.child? r with
  | none => rfl
  | some c => exact ascribed_prune (h.child? hc) (opens_of_child? hc hr)

theorem parameterOf_prune (h : n.Fits lead) :
    (m.prune lead).parameterOf (n.prune lead) = m.parameterOf n := by
  unfold parameterOf
  rw [kind?_prune, text_child?_prune, ascribed_child?_prune h (by decide)]

theorem parametersOf_prune (h : f.Fits lead) :
    (m.prune lead).parametersOf (f.prune lead) = m.parametersOf f := by
  have hcomment : ∀ (m : Module) (c : Node), c.isComment = true → m.parameterOf c = none := by
    intro m c hc
    rw [parameterOf, Option.isNone_iff_eq_none.mp hc]
  unfold parametersOf
  rw [child?_prune, child?_prune]
  cases f.child? .parameter with
  | some p => simp
  | none =>
    cases hl : f.child? .parameters with
    | none => rfl
    | some l =>
      simp only [Option.map_none, Option.map_some]
      rw [filterMap_namedChildren (hcomment _), filterMap_namedChildren (hcomment _),
        properNamed_prune, List.filterMap_map]
      refine List.filterMap_congr fun c hc => ?_
      exact parameterOf_prune ((h.child? hl).of_mem (mem_children_of_properNamed hc))

theorem nameOf_prune (n : Node) : (m.prune lead).nameOf (n.prune lead) = m.nameOf n := by
  rw [nameOf, nameOf, text_child?_prune]

theorem functionShape_prune (h : f.Fits lead) (name : Option String) :
    (m.prune lead).functionShape (f.prune lead) name = m.functionShape f name := by
  unfold functionShape
  rw [parametersOf_prune h, ascribed_child?_prune h (by decide), hasToken_prune]

/-! Exports. -/

theorem exports_prune (m : Module) : (m.prune lead).exports = m.exports.map (Node.prune lead) :=
  ofKind_prune m.root

theorem isDefault_prune (n : Node) : isDefault (n.prune lead) = isDefault n :=
  hasToken_prune n "default"

theorem defaultStatement_prune (m : Module) :
    (m.prune lead).defaultStatement = m.defaultStatement.map (Node.prune lead) := by
  rw [defaultStatement, exports_prune, List.find?_map]
  congr 2
  funext n
  exact isDefault_prune n

theorem fits_of_mem_exports (h : m.root.Fits lead) (hn : n ∈ m.exports) : n.Fits lead :=
  h.of_mem (List.mem_filter.mp (List.mem_filter.mp hn).1).1

theorem fits_of_defaultStatement (h : m.root.Fits lead) (hn : m.defaultStatement = some n) :
    n.Fits lead :=
  fits_of_mem_exports h (List.mem_of_find?_eq_some hn)

theorem bindings_of_isComment (m : Module) {c : Node} (hc : c.isComment = true) :
    m.bindings c = [] := by
  rw [bindings, Option.isNone_iff_eq_none.mp hc]

theorem topBindings_of_isComment (m : Module) {c : Node} (hc : c.isComment = true) :
    m.topBindings c = [] := by
  rw [topBindings, Option.isNone_iff_eq_none.mp hc]
  exact bindings_of_isComment m hc

theorem bindings_prune (n : Node) : (m.prune lead).bindings (n.prune lead)
    = (m.bindings n).map fun b => (b.1, b.2.prune lead) := by
  unfold bindings
  rw [kind?_prune, nameOf_prune]
  split
  · cases m.nameOf n <;> rfl
  · cases m.nameOf n <;> rfl
  · rw [filterMap_namedChildren, filterMap_namedChildren, properNamed_prune, List.filterMap_map,
      List.map_filterMap]
    · congr 1
      funext d
      rw [Function.comp_apply, kind?_prune, child?_prune]
      split
      · cases d.child? .name with
        | none => rfl
        | some c =>
          simp only [Option.map_some, Option.bind_some, kind?_prune, textOf_prune]
          split <;> rfl
      · rfl
    · intro c hc
      rw [Option.isNone_iff_eq_none.mp hc]
      rfl
    · intro c hc
      rw [Option.isNone_iff_eq_none.mp hc]
      rfl
  · rfl

theorem topBindings_prune (n : Node) : (m.prune lead).topBindings (n.prune lead)
    = (m.topBindings n).map fun b => (b.1, b.2.prune lead) := by
  unfold topBindings
  rw [kind?_prune, child?_prune]
  split
  · cases n.child? .declaration with
    | none => rfl
    | some d => exact bindings_prune d
  · exact bindings_prune n

/-- What binds a name stands in the statement. -/
theorem fits_of_mem_bindings {b : String × Node} (h : n.Fits lead) (hb : b ∈ m.bindings n) :
    b.2.Fits lead := by
  unfold bindings at hb
  split at hb
  · cases hn : m.nameOf n <;> simp_all
  · cases hn : m.nameOf n <;> simp_all
  · obtain ⟨d, hd, he⟩ := List.mem_filterMap.mp hb
    split at he
    · obtain ⟨c, -, he⟩ := Option.bind_eq_some_iff.mp he
      split at he
      · cases he
        exact h.of_mem (List.mem_filter.mp hd).1
      · cases he
    · cases he
  · cases hb

theorem fits_of_mem_topBindings {b : String × Node} (h : n.Fits lead) (hb : b ∈ m.topBindings n) :
    b.2.Fits lead := by
  unfold topBindings at hb
  split at hb
  · cases hd : n.child? .declaration with
    | none => simp [hd] at hb
    | some d =>
      rw [hd] at hb
      exact fits_of_mem_bindings (h.child? hd) hb
  · exact fits_of_mem_bindings h hb

theorem declared?_prune (name : String) :
    (m.prune lead).declared? name = (m.declared? name).map (Node.prune lead) := by
  have hb : (m.prune lead).root.namedChildren.flatMap (m.prune lead).topBindings
      = (m.root.namedChildren.flatMap m.topBindings).map fun b => (b.1, b.2.prune lead) := by
    rw [flatMap_namedChildren fun _ => topBindings_of_isComment _,
      flatMap_namedChildren fun _ => topBindings_of_isComment _, List.map_flatMap]
    change (m.root.prune lead).properNamed.flatMap _ = _
    rw [properNamed_prune, List.flatMap_map]
    exact List.flatMap_congr fun c _ => topBindings_prune c
  rw [declared?, declared?, hb, List.find?_map, Option.map_map, Option.map_map]
  rfl

theorem fits_of_declared? {name : String} (h : m.root.Fits lead) (hd : m.declared? name = some n) :
    n.Fits lead := by
  obtain ⟨b, hb, rfl⟩ := Option.map_eq_some_iff.mp hd
  obtain ⟨c, hc, hb⟩ := List.mem_flatMap.mp (List.mem_of_find?_eq_some hb)
  exact fits_of_mem_topBindings (h.of_mem (List.mem_filter.mp hc).1) hb

theorem classify_prune (n : Node) : classify (n.prune lead) = classify n := by
  rw [classify, kind?_prune, classify]

theorem resolve_prune (h : m.root.Fits lead) (name : String) :
    (m.prune lead).resolve name = m.resolve name := by
  unfold resolve
  rw [declared?_prune]
  cases hd : m.declared? name with
  | none => rfl
  | some d =>
    have hf := fits_of_declared? h hd
    simp only [Option.map_some, kind?_prune, functionShape_prune hf, child?_prune]
    cases hv : d.child? .value with
    | none => rfl
    | some v =>
      have hu := hf.child? hv
      simp only [Option.map_some, unwrap_prune hu, kind?_prune, functionShape_prune hu.unwrap,
        classify_prune]

theorem describe_prune (h : m.root.Fits lead) (hn : n.Fits lead) :
    (m.prune lead).describe (n.prune lead) = m.describe n := by
  unfold describe
  simp only [unwrap_prune hn, kind?_prune, functionShape_prune hn.unwrap, nameOf_prune,
    textOf_prune, resolve_prune h, classify_prune]

theorem defaultExport_prune (h : m.root.Fits lead) :
    (m.prune lead).defaultExport = m.defaultExport := by
  unfold defaultExport
  rw [defaultStatement_prune]
  cases he : m.defaultStatement with
  | none => rfl
  | some e =>
    have hf := fits_of_defaultStatement h he
    simp only [Option.map_some, child?_prune]
    cases hd : e.child? .declaration with
    | some d =>
      simp only [Option.map_some, kind?_prune, functionShape_prune (hf.child? hd), nameOf_prune,
        textOf_prune]
    | none =>
      cases hv : e.child? .value with
      | some v => simp only [Option.map_none, Option.map_some, describe_prune h (hf.child? hv)]
      | none => simp only [Option.map_none, textOf_prune]

theorem defaultName_prune (h : m.root.Fits lead) :
    (m.prune lead).defaultName = m.defaultName := by
  unfold defaultName
  rw [defaultStatement_prune]
  cases he : m.defaultStatement with
  | none => rfl
  | some e =>
    have hf := fits_of_defaultStatement h he
    simp only [Option.map_some, Option.bind_some, child?_prune]
    cases hv : e.child? .value with
    | some v =>
      simp only [Option.map_some, unwrap_prune (hf.child? hv), kind?_prune, textOf_prune]
    | none =>
      cases e.child? .declaration with
      | none => rfl
      | some d => exact nameOf_prune d

theorem bindsFunction_prune (h : n.Fits lead) : bindsFunction (n.prune lead) = bindsFunction n := by
  unfold bindsFunction
  rw [kind?_prune, child?_prune]
  split
  · rfl
  · cases hv : n.child? .value with
    | none => rfl
    | some v => simp [unwrap_prune (h.child? hv)]
  · rfl

theorem namedExports_prune (m : Module) :
    (m.prune lead).namedExports = m.namedExports.map (Node.prune lead) := by
  rw [namedExports, exports_prune, List.filter_map]
  congr 2
  funext n
  rw [Function.comp_apply, isDefault_prune]

theorem fits_of_mem_namedExports (h : m.root.Fits lead) (hn : n ∈ m.namedExports) :
    n.Fits lead :=
  fits_of_mem_exports h (List.mem_filter.mp hn).1

theorem namedFunctions_prune (h : m.root.Fits lead) :
    (m.prune lead).namedFunctions = m.namedFunctions := by
  unfold namedFunctions
  have hb : (m.prune lead).namedExports.flatMap (m.prune lead).topBindings
      = (m.namedExports.flatMap m.topBindings).map fun b => (b.1, b.2.prune lead) := by
    rw [namedExports_prune, List.flatMap_map, List.map_flatMap]
    exact List.flatMap_congr fun c _ => topBindings_prune c
  rw [hb, defaultName_prune h, List.filter_map, List.map_map]
  congr 1
  refine List.filter_congr fun b hm => ?_
  obtain ⟨e, he, hm⟩ := List.mem_flatMap.mp hm
  have hf := fits_of_mem_topBindings (fits_of_mem_namedExports h he) hm
  simp only [Function.comp_apply, bindsFunction_prune hf]

theorem exportedVariables_prune (m : Module) :
    (m.prune lead).exportedVariables = m.exportedVariables := by
  unfold exportedVariables
  rw [namedExports_prune, List.flatMap_map]
  refine List.flatMap_congr fun e _ => ?_
  rw [child?_prune]
  cases e.child? .declaration with
  | none => rfl
  | some d => simp [bindings_prune, Function.comp_def]

/-! Imports. -/

theorem importedName_prune (n : Node) :
    (m.prune lead).importedName (n.prune lead) = m.importedName n := by
  unfold importedName
  rw [text_child?_prune, text_child?_prune, hasToken_prune]

theorem filter_flatMap_namedChildren (k : Kind) (l : List Node) :
    ((l.flatMap Node.namedChildren).filter fun c => c.kind? = some k) = l.flatMap (Node.ofKind k) :=
  List.filter_flatMap

theorem flatMap_ofKind_prune (k : Kind) (l : List Node) :
    (l.map (Node.prune lead)).flatMap (Node.ofKind k)
      = (l.flatMap (Node.ofKind k)).map (Node.prune lead) := by
  rw [List.flatMap_map, List.map_flatMap]
  exact List.flatMap_congr fun c _ => ofKind_prune c

theorem importOf_prune (n : Node) : (m.prune lead).importOf (n.prune lead) = m.importOf n := by
  have hs : ((n.prune lead).child? .module).map (fun s => s.span.cut (m.prune lead).text)
      = (n.child? .module).map fun s => s.span.cut m.text := by
    rw [child?_prune, Option.map_map]
    simp only [Function.comp_def, span_prune]
    rfl
  have hclause : ∀ n : Node, clauseParts n = (n.ofKind .importClause).flatMap Node.namedChildren :=
    fun _ => rfl
  unfold importOf
  simp only [hs, hasToken_prune, textOf_prune, hclause, filter_flatMap_namedChildren, ofKind_prune,
    flatMap_ofKind_prune, List.getLast?_map, List.map_map, Option.map_map, Function.comp_def,
    importedName_prune]

theorem imports_prune (m : Module) : (m.prune lead).imports = m.imports := by
  change ((m.root.prune lead).ofKind .importStatement).map _ = _
  rw [ofKind_prune, List.map_map]
  congr 1
  funext n
  exact importOf_prune n

/-! Constructions. -/

theorem plainString_prune (n : Node) :
    (m.prune lead).plainString (n.prune lead) = m.plainString n := by
  unfold plainString
  rw [kind?_prune]
  split
  · change some (String.join (((n.prune lead).ofKind .fragment).map _)) = _
    rw [ofKind_prune, List.map_map]
    congr 3
    funext c
    exact textOf_prune
  · rfl

theorem optionsOf_prune (n : Node) : (m.prune lead).optionsOf (n.prune lead) = m.optionsOf n := by
  unfold optionsOf
  rw [foldl_namedChildren, foldl_namedChildren, properNamed_prune, List.foldl_map]
  · congr 1
    funext options p
    rw [kind?_prune, child?_prune, child?_prune]
    split
    · cases p.child? .key with
      | none => rfl
      | some k =>
        simp only [Option.map_some, kind?_prune, textOf_prune]
        cases p.child? .value with
        | none => rfl
        | some v => simp only [Option.map_some, Option.bind_some, plainString_prune]
    · rfl
  · intro options c hc
    rw [Option.isNone_iff_eq_none.mp hc]
    rfl
  · intro options c hc
    rw [Option.isNone_iff_eq_none.mp hc]
    rfl

theorem constructionOf_prune (h : n.Fits lead) :
    (m.prune lead).constructionOf (n.prune lead) = m.constructionOf n := by
  unfold constructionOf
  rw [text_child?_prune, textOf_prune, child?_prune]
  congr 1
  cases ha : n.child? .arguments with
  | none => rfl
  | some a =>
    have hf := h.child? ha
    have hfirst := first?_prune hf (opens_of_child? ha (by decide))
    unfold first? at hfirst
    simp only [Option.map_some, Option.bind_some, hfirst]
    cases hc : a.namedChildren.head? with
    | none => rfl
    | some c =>
      have hu := unwrap_prune (hf.of_mem (mem_of_first? hc))
      simp only [Option.map_some, Option.bind_some, hu, kind?_prune, optionsOf_prune]

theorem constructions_prune (h : m.root.Fits lead) :
    (m.prune lead).constructions = m.constructions := by
  unfold constructions
  change ((m.root.prune lead).walk.filter _).map _ = _
  rw [walk_eq, walk_eq, filter_kind?, filter_preorder_prune, filter_kind?_map_prune, List.map_map,
    filter_kind? _ m.root.preorder]
  refine List.map_congr_left fun n hn => constructionOf_prune ?_
  exact h.of_mem_preorder (List.mem_filter.mp (List.mem_filter.mp hn).1).1

theorem defaultConstruction_prune (h : m.root.Fits lead) :
    (m.prune lead).defaultConstruction = m.defaultConstruction := by
  unfold defaultConstruction
  rw [defaultStatement_prune]
  cases he : m.defaultStatement with
  | none => rfl
  | some e =>
    simp only [Option.map_some, Option.bind_some, child?_prune]
    cases hv : e.child? .value with
    | none => rfl
    | some v =>
      obtain ⟨hr, hf⟩ := chainRoot_prune ((fits_of_defaultStatement h he).child? hv)
      simp only [Option.map_some, Option.bind_some, hr, kind?_prune, constructionOf_prune hf]

/-- What is known of a module stays as long as the nodes that are taken first do. -/
theorem answersAs_prune (h : m.root.Fits lead) : AnswersAs (m.prune lead) m where
  defaultExport := defaultExport_prune h
  namedFunctions := namedFunctions_prune h
  exportedVariables := exportedVariables_prune m
  imports := imports_prune m
  constructions := constructions_prune h
  constructionsOf constructor := by rw [constructionsOf, constructions_prune h, constructionsOf]
  defaultConstruction := defaultConstruction_prune h

/-- Comments are seen only where they are taken for what a node holds: all others can go, and all can
if there are none of those. -/
theorem answersAs_without_comments (m : Module) :
    m.tidied.AnswersAs m ∧ (m.root.isClear = true → m.uncommented.AnswersAs m) :=
  ⟨answersAs_prune (Or.inl rfl), fun h => answersAs_prune (Or.inr h)⟩

/-- A module with comments in most of its places. -/
def annotated : String :=
  "import /* a */ \x7b x /* b */ \x7d from 'y' // c\n"
    ++ "const f = (x /* d */) as /* e */ T\n"
    ++ "export default /* f */ (f /* g */)\n"
    ++ "export const z = (/* h */) => new /* i */ A(\x7b /* j */ k: 'v' \x7d, /* k */ 1)"

theorem answersAs_annotated : ∃ m, Module.parse annotated "a.ts" = .ok m ∧
    m.uncommented.AnswersAs m ∧ m.uncommented.root.size + 11 = m.root.size := by
  have h : (Module.parse annotated "a.ts").toOption.any fun m =>
      m.root.isClear && m.uncommented.root.size + 11 = m.root.size := by
    decide +kernel
  obtain ⟨m, hm, h⟩ := exists_ok_of_any h
  rw [Bool.and_eq_true, decide_eq_true_iff] at h
  exact ⟨m, hm, (answersAs_without_comments m).2 h.1, h.2⟩

/-- A module with a comment before the type of a parameter. -/
def ledType : String := "export default function f(a: /* c */ TArgs): TErrTuple \x7b\x7d\n"

/-- A comment is taken for the type of a parameter. -/
theorem defaultExport_ledType : ∃ m, Module.parse ledType "a.ts" = .ok m ∧
    m.defaultExport = some (.function
      ⟨[⟨"a", "/* c */", false⟩], some "TErrTuple", false, some "f"⟩) ∧
    m.uncommented.defaultExport = some (.function
      ⟨[⟨"a", "TArgs", false⟩], some "TErrTuple", false, some "f"⟩) := by
  have h : (Module.parse ledType "a.ts").toOption.any fun m =>
      m.defaultExport = some (.function
        ⟨[⟨"a", "/* c */", false⟩], some "TErrTuple", false, some "f"⟩) &&
      m.uncommented.defaultExport = some (.function
        ⟨[⟨"a", "TArgs", false⟩], some "TErrTuple", false, some "f"⟩) := by
    decide +kernel
  obtain ⟨m, hm, h⟩ := exists_ok_of_any h
  rw [Bool.and_eq_true, decide_eq_true_iff, decide_eq_true_iff] at h
  exact ⟨m, hm, h.1, h.2⟩

end Module

end ConventionLint
