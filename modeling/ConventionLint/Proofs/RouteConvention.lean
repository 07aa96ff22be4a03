import ConventionLint.Proofs.Chains
import ConventionLint.Proofs.Comments
import ConventionLint.Proofs.FunctionConvention
import ConventionLint.Proofs.StringValues

/-! The rules for the area of routes accept exactly the files that keep the convention for routes, if
the texts that it is about are written out. What is the first argument of a construction is told by
the first named node, which may be a comment; escapes are left out of the route option, and marks at
the ends of a module's path are taken for those around it. -/
namespace ConventionLint

open Run Text

variable {d : Volume} {s : RunState} {x : Context} {m : Module}

/-- A file of routes keeps the convention. Texts are compared by what their literals stand for. -/
structure KeepsRouteConvention (x : Context) (m : Module) : Prop where
  named : (x.conventions.setting .apiFront).toList <+: x.fileName.toList
  imported : ∃ n ∈ m.importStatements, m.ImportsFrom n "elysia".toList ∧
    ∃ i ∈ (m.importOf n).names, i.name = "Elysia"
  exported : m.ExportsChain "Elysia"
  /-- The first construction with the option counts, and the option's value if it is a plain string. -/
  fronted : ∃ before n after p, m.root.preorder = before ++ n :: after ∧
    (m.Constructs "Elysia" n ∧ m.Gives n "prefix" p) ∧
    (∀ b ∈ before, m.Constructs "Elysia" b → ∀ q, ¬ m.Gives b "prefix" q) ∧
    ∀ v value, p.child? .value = some v → m.literal? v = some value →
      units (x.conventions.setting .routeFront).toList <+: value
  /-- The part of a module's path behind its last slash tells a controller. -/
  delegating : ∃ n ∈ m.importStatements, ∃ path, m.ImportsFrom n path ∧ ∃ segment, '/' ∉ segment ∧
    (path = segment ∨ ∃ directory, path = directory ++ '/' :: segment) ∧
    (x.conventions.setting .controllerFront).toList <+: segment

/-- The first route option is written without escapes. -/
def Module.spellsRoute (m : Module) : Bool :=
  ((m.firstOption? "Elysia" "prefix").bind (·.child? .value)).all Module.isUnescaped

/-- The value of the first route option, if it is a plain string, starts as it has to. -/
def isFronted (x : Context) (m : Module) : Bool :=
  (m.firstOption? "Elysia" "prefix").any fun p => ((p.child? .value).bind m.literal?).all
    (units (x.conventions.setting .routeFront).toList).isPrefixOf

/-- The same of the value that the rule reads. -/
def looksFronted (x : Context) (m : Module) : Bool :=
  (Rule.routeFront? (m.constructionsOf "Elysia")).any fun value =>
    value.all (Rule.startsWith (x.conventions.setting .routeFront))

/-- What is asked of a module besides its route option, as the rules read it. -/
def looksRouted (x : Context) (m : Module) : Bool :=
  Rule.startsWith (x.conventions.setting .apiFront) x.fileName &&
  (m.imports.any fun i => i.module = "elysia" && i.names.any fun n => n.name = "Elysia") &&
  (m.defaultConstruction.any fun c => c.constructor = "Elysia") &&
  m.imports.any fun i =>
    Rule.startsWith (x.conventions.setting .controllerFront) (Rule.lastSegment i.module)

namespace Rule

theorem startsWith_iff {front text : String} :
    startsWith front text = true ↔ front.toList <+: text.toList :=
  after?_isSome_iff

theorem lastSegment_of {path : String} {segment : List Char} (hs : '/' ∉ segment)
    (h : path.toList = segment ∨ ∃ directory, path.toList = directory ++ '/' :: segment) :
    (lastSegment path).toList = segment := by
  unfold lastSegment
  rcases h with h | ⟨directory, h⟩
  · rw [h, splitLast?_of_not_mem hs]
    exact h
  · rw [h, splitLast?_append hs]
    exact String.toList_ofList

theorem exists_lastSegment (cs : List Char) : ∃ segment, '/' ∉ segment ∧
    (cs = segment ∨ ∃ directory, cs = directory ++ '/' :: segment) := by
  induction cs with
  | nil => exact ⟨[], by simp, Or.inl rfl⟩
  | cons c cs ih =>
    obtain ⟨segment, hs, rfl | ⟨directory, rfl⟩⟩ := ih
    · by_cases hc : c = '/'
      · exact ⟨cs, hs, Or.inr ⟨[], by rw [hc]; rfl⟩⟩
      · exact ⟨c :: cs, by simp [hs, Ne.symm hc], Or.inl rfl⟩
    · exact ⟨segment, hs, Or.inr ⟨c :: directory, rfl⟩⟩

/-- The last segment of a path starts with a text if and only if what follows its last slash does. -/
theorem startsWith_lastSegment_iff {front path : String} :
    startsWith front (lastSegment path) = true ↔ ∃ segment, '/' ∉ segment ∧
      (path.toList = segment ∨ ∃ directory, path.toList = directory ++ '/' :: segment) ∧
      front.toList <+: segment := by
  rw [startsWith_iff]
  constructor
  · intro h
    obtain ⟨segment, hs, hp⟩ := exists_lastSegment path.toList
    rw [lastSegment_of hs hp] at h
    exact ⟨segment, hs, hp, h⟩
  · rintro ⟨segment, hs, hp, h⟩
    rwa [lastSegment_of hs hp]

/-! What the rules ask for. -/

theorem quiet_apiFileName : Quiet ((apiFileName.check x).exec d s).1 ↔
    (x.conventions.setting .apiFront).toList <+: x.fileName.toList :=
  quiet_passIf.trans startsWith_iff

theorem quiet_apiImportsElysia (hm : Module.parse x.content x.file = .ok m) :
    Quiet ((apiImportsElysia.check x).exec d s).1 ↔ (m.imports.any fun i =>
      i.module = "elysia" && i.names.any fun n => n.name = "Elysia") = true := by
  have he : (apiImportsElysia.check x).exec d s = _ := exec_bind_ok (exec_module hm) _
  rw [he, exec_pure, quiet_passIf]
  rfl

theorem quiet_apiDefaultExportIsElysia (hm : Module.parse x.content x.file = .ok m) :
    Quiet ((apiDefaultExportIsElysia.check x).exec d s).1 ↔ m.ExportsChain "Elysia" := by
  have he : (apiDefaultExportIsElysia.check x).exec d s = _ := exec_bind_ok (exec_module hm) _
  rw [he, exec_pure, quiet_passIf]
  exact Module.exportsChain_iff (by decide)

/-- The rule on the option does not apply only if there is no construction. -/
theorem quiet_apiElysiaHasPrefix (hm : Module.parse x.content x.file = .ok m)
    (hc : m.constructionsOf "Elysia" ≠ []) :
    (∀ reason, ((apiElysiaHasPrefix.check x).exec d s).1 ≠ .ok (.notApplicable reason)) ∧
    (Quiet ((apiElysiaHasPrefix.check x).exec d s).1 ↔ looksFronted x m = true) := by
  have he : (apiElysiaHasPrefix.check x).exec d s = _ := exec_bind_ok (exec_module hm) _
  have hempty : (m.constructionsOf frameworkClass).isEmpty = false :=
    List.isEmpty_eq_false_iff.mpr hc
  rw [he]
  dsimp only
  rw [if_neg (by simp [hempty])]
  have hclass : frameworkClass = "Elysia" := rfl
  rw [hclass, looksFronted]
  rcases routeFront? (m.constructionsOf "Elysia") with _ | _ | value
  · simp [quiet_ok, Outcome.failed, Outcome.message?]
  · simp [quiet_ok, Outcome.message?]
  · dsimp only
    rw [exec_pure, quiet_passIf]
    refine ⟨fun reason => ?_, by simp⟩
    unfold Outcome.passIf
    split <;> simp [Outcome.failed]

theorem quiet_apiImportsController (hm : Module.parse x.content x.file = .ok m) :
    Quiet ((apiImportsController.check x).exec d s).1 ↔ (m.imports.any fun i =>
      startsWith (x.conventions.setting .controllerFront) (lastSegment i.module)) = true := by
  have he : (apiImportsController.check x).exec d s = _ := exec_bind_ok (exec_module hm) _
  rw [he]
  dsimp only
  split
  · rename_i h
    simp [h, quiet_ok, Outcome.message?]
  · rename_i h
    obtain ⟨doc, hd⟩ := docOf_controller x.conventions
    rw [hd, ofExcept_ok_bind, exec_pure]
    simp [h, quiet_ok, Outcome.failed, Outcome.message?]

theorem areaRules_api : areaRules .api =
    [apiFileName, apiImportsElysia, apiDefaultExportIsElysia, apiElysiaHasPrefix,
     apiImportsController] := rfl

end Rule

/-! What the rules read is what is written, where it is written out. -/

theorem any_imports_iff {p : Import → Bool} :
    m.imports.any p = true ↔ ∃ n ∈ m.importStatements, p (m.importOf n) = true := by
  have himports : m.imports = m.importStatements.map m.importOf := rfl
  rw [himports, List.any_map, List.any_eq_true]
  rfl

theorem imported_iff (h : m.spellsImports = true) :
    (m.imports.any fun i => i.module = "elysia" && i.names.any fun n => n.name = "Elysia") = true ↔
      ∃ n ∈ m.importStatements, m.ImportsFrom n "elysia".toList ∧
        ∃ i ∈ (m.importOf n).names, i.name = "Elysia" := by
  rw [any_imports_iff]
  refine exists_congr fun n => and_congr_right fun hn => ?_
  rw [Module.importsFrom_iff (List.all_eq_true.mp h n hn), String.toList_inj]
  simp

theorem delegating_iff (h : m.spellsImports = true) (front : String) :
    (m.imports.any fun i => Rule.startsWith front (Rule.lastSegment i.module)) = true ↔
      ∃ n ∈ m.importStatements, ∃ path, m.ImportsFrom n path ∧ ∃ segment, '/' ∉ segment ∧
        (path = segment ∨ ∃ directory, path = directory ++ '/' :: segment) ∧
        front.toList <+: segment := by
  rw [any_imports_iff]
  refine exists_congr fun n => and_congr_right fun hn => ?_
  simp only [Module.importsFrom_iff (List.all_eq_true.mp h n hn), exists_eq_left']
  exact Rule.startsWith_lastSegment_iff

theorem isFronted_iff : isFronted x m = true ↔
    ∃ before n after p, m.root.preorder = before ++ n :: after ∧
      (m.Constructs "Elysia" n ∧ m.Gives n "prefix" p) ∧
      (∀ b ∈ before, m.Constructs "Elysia" b → ∀ q, ¬ m.Gives b "prefix" q) ∧
      ∀ v value, p.child? .value = some v → m.literal? v = some value →
        units (x.conventions.setting .routeFront).toList <+: value := by
  have hvalue : ∀ p : Source.Node, ((p.child? .value).bind m.literal?).all
      (units (x.conventions.setting .routeFront).toList).isPrefixOf = true ↔
      ∀ v value, p.child? .value = some v → m.literal? v = some value →
        units (x.conventions.setting .routeFront).toList <+: value := by
    intro p
    rw [Option.all_eq_true]
    simp only [Option.bind_eq_some_iff, List.isPrefixOf_iff_prefix]
    exact ⟨fun h v value hv hl => h value ⟨v, hv, hl⟩, fun h value ⟨v, hv, hl⟩ => h v value hv hl⟩
  rw [isFronted, Option.any_eq_true]
  simp only [Module.firstOption?_eq_some_iff (show "Elysia" ≠ "" by decide), hvalue]
  constructor
  · rintro ⟨p, ⟨before, n, after, hsplit, hgives, hbefore⟩, hstarts⟩
    exact ⟨before, n, after, p, hsplit, hgives, hbefore, hstarts⟩
  · rintro ⟨before, n, after, p, hsplit, hgives, hbefore, hstarts⟩
    exact ⟨p, ⟨before, n, after, hsplit, hgives, hbefore⟩, hstarts⟩

theorem looksFronted_eq (h : m.spellsRoute = true) : looksFronted x m = isFronted x m := by
  have hread : Rule.routeFront? (m.constructionsOf "Elysia") =
      (m.firstOption? "Elysia" "prefix").map m.valueOf := m.findSome?_constructionsOf _ _
  unfold Module.spellsRoute at h
  rw [looksFronted, hread, isFronted]
  cases hp : m.firstOption? "Elysia" "prefix" with
  | none => rfl
  | some p =>
    rw [hp, Option.bind_some] at h
    rw [Option.map_some, Option.any_some, Option.any_some, Module.valueOf]
    cases hv : p.child? .value with
    | none => rfl
    | some v =>
      rw [hv, Option.all_some] at h
      rw [Option.bind_some, Option.bind_some, Module.literal?_eq h]
      cases m.plainString v with
      | none => rfl
      | some text =>
        rw [Option.map_some, Option.all_some, Option.all_some, Bool.eq_iff_iff, Rule.startsWith_iff,
          List.isPrefixOf_iff_prefix, units_isPrefix_iff]

theorem keepsRouteConvention_iff (h : m.spellsImports = true) :
    KeepsRouteConvention x m ↔ looksRouted x m = true ∧ isFronted x m = true := by
  have hexported := Module.exportsChain_iff (m := m) (show "Elysia" ≠ "" by decide)
  rw [looksRouted, Bool.and_eq_true, Bool.and_eq_true, Bool.and_eq_true, Rule.startsWith_iff,
    imported_iff h, hexported, delegating_iff h, isFronted_iff]
  constructor
  · rintro ⟨hnamed, himported, hexported, hfronted, hdelegating⟩
    exact ⟨⟨⟨⟨hnamed, himported⟩, hexported⟩, hdelegating⟩, hfronted⟩
  · rintro ⟨⟨⟨⟨hnamed, himported⟩, hexported⟩, hdelegating⟩, hfronted⟩
    exact ⟨hnamed, himported, hexported, hfronted, hdelegating⟩

/-- The rules for the area complain unless the convention looks kept. -/
theorem quiet_routes_iff (hm : Module.parse x.content x.file = .ok m) :
    (∀ r ∈ Rule.areaRules .api, Rule.Quiet ((r.check x).exec d s).1) ↔
      looksRouted x m = true ∧ looksFronted x m = true := by
  rw [Rule.areaRules_api]
  simp only [List.forall_mem_cons, List.not_mem_nil, false_imp_iff, implies_true, and_true]
  have hexported := Module.exportsChain_iff (m := m) (show "Elysia" ≠ "" by decide)
  rw [Rule.quiet_apiFileName, Rule.quiet_apiImportsElysia hm, Rule.quiet_apiDefaultExportIsElysia hm,
    Rule.quiet_apiImportsController hm, looksRouted, Bool.and_eq_true, Bool.and_eq_true,
    Bool.and_eq_true, Rule.startsWith_iff, hexported]
  -- the rule on the option applies, since the default export is a construction
  constructor
  · rintro ⟨hnamed, himported, hexported, hfronted, hdelegating⟩
    have hc := hexported.constructionsOf_ne_nil (by decide)
    rw [(Rule.quiet_apiElysiaHasPrefix hm hc).2] at hfronted
    exact ⟨⟨⟨⟨hnamed, himported⟩, hexported⟩, hdelegating⟩, hfronted⟩
  · rintro ⟨⟨⟨⟨hnamed, himported⟩, hexported⟩, hdelegating⟩, hfronted⟩
    have hc := hexported.constructionsOf_ne_nil (by decide)
    rw [(Rule.quiet_apiElysiaHasPrefix hm hc).2]
    exact ⟨hnamed, himported, hexported, hfronted, hdelegating⟩

/-- No rule for another area than that of functions breaks off a dispatch. -/
theorem dispatch_of_area_ne (hc : x.conventions.Consistent) (ha : x.area? ≠ some .function) :
    ((Registry.builtin.dispatch x none false).exec d s).1
      = .ok (Rule.shares d s x (Registry.builtin.select x.toPlace none false)).diagnostics := by
  rw [exec_dispatch_fst fun r hr => Rule.steady_check hc hr]
  cases he : (Registry.builtin.select x.toPlace none false).findSome? fun r =>
      escape? (r.verdict d s x) with
  | none => rfl
  | some e =>
    obtain ⟨-, harea, -⟩ := (Rule.escapes_select_iff hc).mp he
    exact (ha harea).elim

theorem dispatch_route_iff (hc : x.conventions.Consistent) (ha : x.area? = some .api)
    (ht : x.isTest = false) (hm : Module.parse x.content x.file = .ok m) :
    ((Registry.builtin.dispatch x none false).exec d s).1 = .ok [] ↔
      looksRouted x m = true ∧ looksFronted x m = true := by
  rw [dispatch_of_area_ne hc (by simp [ha]), Except.ok.injEq, shares_eq_nil_iff,
    Rule.silent_area_iff ha ht hm, quiet_routes_iff hm]

/-- Modules of which the same is known look the same to the rules. -/
theorem looksRouted_congr {m' : Module} (h : m.AnswersAs m') :
    (looksRouted x m = true ∧ looksFronted x m = true) ↔
      looksRouted x m' = true ∧ looksFronted x m' = true := by
  rw [looksRouted, looksRouted, looksFronted, looksFronted, h.imports, h.defaultConstruction,
    h.constructionsOf]

theorem looksRouted_iff (hi : m.spellsImports = true) (ho : m.spellsRoute = true) :
    (looksRouted x m = true ∧ looksFronted x m = true) ↔ KeepsRouteConvention x m := by
  rw [looksFronted_eq ho, keepsRouteConvention_iff hi]

/-- A source file of the area of routes that writes out the paths of its imports and its first route
option is accepted if and only if it keeps the convention, and without regard to comments if none
stands first where the first node counts. The rule on the route option applies to every module whose
default export is right. -/
theorem dispatch_accepts_route_iff {v : Data.Value} (hc : Conventions.ofValue v = .ok x.conventions)
    (ha : x.area? = some .api) (ht : x.isTest = false)
    (hm : Module.parse x.content x.file = .ok m) :
    (∃ diagnostics, ((Registry.builtin.dispatch x none false).exec d s).1 = .ok diagnostics) ∧
    (m.spellsImports = true → m.spellsRoute = true →
      (((Registry.builtin.dispatch x none false).exec d s).1 = .ok [] ↔ KeepsRouteConvention x m)) ∧
    (m.root.isClear = true → m.uncommented.spellsImports = true → m.uncommented.spellsRoute = true →
      (((Registry.builtin.dispatch x none false).exec d s).1 = .ok [] ↔
        KeepsRouteConvention x m.uncommented)) ∧
    (((Rule.apiDefaultExportIsElysia.check x).exec d s).1 = .ok .pass →
      ∀ reason, ((Rule.apiElysiaHasPrefix.check x).exec d s).1 ≠ .ok (.notApplicable reason)) := by
  have hconsistent := Conventions.ofValue_consistent hc
  have haccepts := dispatch_route_iff (d := d) (s := s) hconsistent ha ht hm
  refine ⟨⟨_, dispatch_of_area_ne hconsistent (by simp [ha])⟩, fun hi ho => ?_,
    fun hclear hi ho => ?_, fun hpass => ?_⟩
  · rw [haccepts, looksRouted_iff hi ho]
  · rw [haccepts, ← looksRouted_congr (Module.answersAs_prune (Or.inr hclear))]
    exact looksRouted_iff hi ho
  · have hexported := (Rule.quiet_apiDefaultExportIsElysia hm).mp (by
      rw [hpass, Rule.quiet_ok]
      rfl)
    exact (Rule.quiet_apiElysiaHasPrefix hm (hexported.constructionsOf_ne_nil (by decide))).1

/-- A module of routes: where it imports the class from, what stands before its options, and its
route option. -/
def routes (source before front : String) : Context where
  directory := ⟨.root, ["p"]⟩
  file := "src/api/api.x.ts"
  conventions := {}
  workingDirectory := ⟨.root, []⟩
  content := "import \x7b Elysia \x7d from " ++ source ++ ";\n"
    ++ "import run from '../controller/ctrl.x';\n"
    ++ "export default new Elysia(" ++ before ++ "\x7b prefix: '" ++ front ++ "' \x7d).get('/', run);\n"

theorem dispatch_accepts_routes : ∃ m,
    Module.parse (routes "'elysia'" "" "/api/x").content (routes "'elysia'" "" "/api/x").file = .ok m ∧
    m.root.isClear = true ∧ m.uncommented.spellsImports = true ∧ m.uncommented.spellsRoute = true ∧
    KeepsRouteConvention (routes "'elysia'" "" "/api/x") m.uncommented ∧
    ((Registry.builtin.dispatch (routes "'elysia'" "" "/api/x") none false).exec {}
      (.fresh (routes "'elysia'" "" "/api/x").directory {})).1 = .ok [] := by
  have hp : (Module.parse (routes "'elysia'" "" "/api/x").content
      (routes "'elysia'" "" "/api/x").file).toOption.any fun m =>
      m.root.isClear && m.uncommented.spellsImports && m.uncommented.spellsRoute &&
        looksRouted (routes "'elysia'" "" "/api/x") m.uncommented &&
        isFronted (routes "'elysia'" "" "/api/x") m.uncommented := by
    decide +kernel
  obtain ⟨m, hm, h⟩ := exists_ok_of_any hp
  simp only [Bool.and_eq_true] at h
  obtain ⟨⟨⟨⟨hclear, hi⟩, ho⟩, hrouted⟩, hfronted⟩ := h
  have hkeeps := (keepsRouteConvention_iff hi).mpr ⟨hrouted, hfronted⟩
  exact ⟨m, hm, hclear, hi, ho, hkeeps, ((dispatch_accepts_route_iff (v := .null) rfl
    (by decide +kernel) (by decide +kernel) hm).2.2.1 hclear hi ho).mpr hkeeps⟩

theorem area?_routes (source before front : String) :
    (routes source before front).area? = some .api := by
  have h : (routes "" "" "").area? = some .api := by decide +kernel
  exact h

theorem isTest_routes (source before front : String) :
    (routes source before front).isTest = false := by
  have h : (routes "" "" "").isTest = false := by decide +kernel
  exact h

/-- Nothing is imported from the right module, or the first route option starts otherwise. -/
def breaksRoute (x : Context) (m : Module) : Bool :=
  !isFronted x m || m.importStatements.all fun n =>
    (n.child? .module).bind m.literal? ≠ some (units "elysia".toList)

theorem not_keepsRouteConvention (h : breaksRoute x m = true) : ¬ KeepsRouteConvention x m := by
  intro hkeeps
  rcases Bool.or_eq_true_iff.mp h with h | h
  · rw [isFronted_iff.mpr hkeeps.fronted] at h
    cases h
  · obtain ⟨n, hn, ⟨l, hl, hvalue⟩, -⟩ := hkeeps.imported
    exact of_decide_eq_true (List.all_eq_true.mp h n hn) (by rw [hl, Option.bind_some, hvalue])

/-- A module is refused although it keeps the convention. -/
def RefusesKept (x : Context) : Prop :=
  ∃ m, Module.parse x.content x.file = .ok m ∧ KeepsRouteConvention x m.uncommented ∧
    ((Registry.builtin.dispatch x none false).exec {} (.fresh x.directory {})).1 ≠ .ok []

/-- A module is accepted although it breaks the convention. -/
def AcceptsBroken (x : Context) : Prop :=
  ∃ m, Module.parse x.content x.file = .ok m ∧ ¬ KeepsRouteConvention x m.uncommented ∧
    ((Registry.builtin.dispatch x none false).exec {} (.fresh x.directory {})).1 = .ok []

theorem dispatch_routes {source before front : String}
    (hm : Module.parse (routes source before front).content (routes source before front).file = .ok m) :
    ((Registry.builtin.dispatch (routes source before front) none false).exec d s).1 = .ok [] ↔
      looksRouted (routes source before front) m = true ∧
      looksFronted (routes source before front) m = true :=
  dispatch_route_iff Conventions.consistent_standard (area?_routes source before front)
    (isTest_routes source before front) hm

theorem refusesKept_routes {source before front : String}
    (h : (Module.parse (routes source before front).content
      (routes source before front).file).toOption.any fun m =>
        m.uncommented.spellsImports && (looksRouted (routes source before front) m.uncommented &&
          isFronted (routes source before front) m.uncommented) &&
        !looksFronted (routes source before front) m) :
    RefusesKept (routes source before front) := by
  obtain ⟨m, hm, h⟩ := exists_ok_of_any h
  simp only [Bool.and_eq_true, Bool.not_eq_true'] at h
  obtain ⟨⟨hi, hkeeps⟩, hlooks⟩ := h
  refine ⟨m, hm, (keepsRouteConvention_iff hi).mpr hkeeps, fun haccepted => ?_⟩
  exact absurd ((dispatch_routes hm).mp haccepted).2 (by simp [hlooks])

theorem acceptsBroken_routes {source before front : String}
    (h : (Module.parse (routes source before front).content
      (routes source before front).file).toOption.any fun m =>
        breaksRoute (routes source before front) m.uncommented &&
        (looksRouted (routes source before front) m && looksFronted (routes source before front) m)) :
    AcceptsBroken (routes source before front) := by
  obtain ⟨m, hm, h⟩ := exists_ok_of_any h
  simp only [Bool.and_eq_true] at h
  exact ⟨m, hm, not_keepsRouteConvention h.1, (dispatch_routes hm).mpr h.2⟩

/-- The rules misread a module if a comment stands before its options, which is taken for the first
argument; if its route option has escapes, which are left out; and if the path that it imports from
has marks of its own. -/
theorem dispatch_misreads_routes :
    RefusesKept (routes "'elysia'" "/* routes */ " "/api/x") ∧
    RefusesKept (routes "'elysia'" "" "\\u002fapi/x") ∧
    AcceptsBroken (routes "'elysia'" "" "/a\\u0000pi/x") ∧
    AcceptsBroken (routes "'\"elysia\"'" "" "/api/x") :=
  ⟨refusesKept_routes (by decide +kernel), refusesKept_routes (by decide +kernel),
    acceptsBroken_routes (by decide +kernel), acceptsBroken_routes (by decide +kernel)⟩

end ConventionLint
