import ConventionLint.Proofs.Consistency
import ConventionLint.Proofs.Run
import ConventionLint.Rule.Registry

/-! What the checks of the known rules look at. All but two of them see the file and the conventions
only; one asks for the catalog and one reads the file that a test is for. -/
namespace ConventionLint

open Run

namespace Rule

variable {x : Context}

/-- A known rule is one of these. -/
@[elab_as_elim]
theorem builtin_cases {motive : (r : Rule) → r ∈ Registry.builtin.entries → Prop}
    (functionFileName : ∀ h, motive Rule.functionFileName h)
    (functionPathDepth : ∀ h, motive Rule.functionPathDepth h)
    (functionDefaultExport : ∀ h, motive Rule.functionDefaultExport h)
    (functionDefaultExportIsFunction : ∀ h, motive Rule.functionDefaultExportIsFunction h)
    (functionSingleExport : ∀ h, motive Rule.functionSingleExport h)
    (functionParameterCount : ∀ h, motive Rule.functionParameterCount h)
    (functionPortalParameter : ∀ h, motive Rule.functionPortalParameter h)
    (functionArgsParameter : ∀ h, motive Rule.functionArgsParameter h)
    (functionReturnType : ∀ h, motive Rule.functionReturnType h)
    (functionPortalDatabase : ∀ h, motive Rule.functionPortalDatabase h)
    (functionDbImportsTypeOnly : ∀ h, motive Rule.functionDbImportsTypeOnly h)
    (functionTestImportsTestingDb : ∀ h, motive Rule.functionTestImportsTestingDb h)
    (controllerFileName : ∀ h, motive Rule.controllerFileName h)
    (controllerDefaultExportIsFunction : ∀ h, motive Rule.controllerDefaultExportIsFunction h)
    (controllerParameterCount : ∀ h, motive Rule.controllerParameterCount h)
    (controllerPortalParameter : ∀ h, motive Rule.controllerPortalParameter h)
    (controllerArgsParameter : ∀ h, motive Rule.controllerArgsParameter h)
    (controllerReturnType : ∀ h, motive Rule.controllerReturnType h)
    (controllerPortalExcludesFunctions : ∀ h, motive Rule.controllerPortalExcludesFunctions h)
    (databaseFileName : ∀ h, motive Rule.databaseFileName h)
    (databaseFileNameMatchesDirectory : ∀ h, motive Rule.databaseFileNameMatchesDirectory h)
    (databasePathDepth : ∀ h, motive Rule.databasePathDepth h)
    (apiFileName : ∀ h, motive Rule.apiFileName h)
    (apiImportsElysia : ∀ h, motive Rule.apiImportsElysia h)
    (apiDefaultExportIsElysia : ∀ h, motive Rule.apiDefaultExportIsElysia h)
    (apiElysiaHasPrefix : ∀ h, motive Rule.apiElysiaHasPrefix h)
    (apiImportsController : ∀ h, motive Rule.apiImportsController h)
    (noJavaScript : ∀ h, motive Rule.noJavaScript h)
    (noTypeScriptInRoot : ∀ h, motive Rule.noTypeScriptInRoot h)
    (testDescribeWrapper : ∀ h, motive Rule.testDescribeWrapper h)
    (r : Rule) (hr : r ∈ Registry.builtin.entries) : motive r hr := by
  have hmem := hr
  simp only [Registry.builtin, List.mem_cons, List.not_mem_nil, or_false] at hmem
  rcases hmem with rfl | rfl | rfl | rfl | rfl | rfl | rfl | rfl | rfl | rfl | rfl | rfl | rfl |
    rfl | rfl | rfl | rfl | rfl | rfl | rfl | rfl | rfl | rfl | rfl | rfl | rfl | rfl | rfl | rfl | rfl
  all_goals apply_assumption

theorem plain_module (x : Context) : x.module.Plain :=
  plain_ofExcept fun _ _ => rfl

theorem plain_defaultFunction? (x : Context) : (defaultFunction? x).Plain := by
  refine plain_bind (plain_module x) fun m => ?_
  split <;> exact plain_pure _

theorem plain_exportsFunction (x : Context) (subject : String) :
    (exportsFunction x subject).Plain := by
  refine plain_bind (plain_module x) fun m => ?_
  split <;> exact plain_pure _

theorem plain_countsParameters (x : Context) (subject : String) (roles : List ParameterRole) :
    (countsParameters x subject roles).Plain := by
  refine plain_bind (plain_defaultFunction? x) fun f => ?_
  split <;> exact plain_pure _

theorem plain_marksParameter (x : Context) (subject : String) (roles : List ParameterRole)
    (role : ParameterRole) (ignoreCase : Bool) :
    (marksParameter x subject roles role ignoreCase).Plain := by
  unfold marksParameter
  split
  · exact plain_pure _
  · refine plain_bind (plain_defaultFunction? x) fun f => ?_
    split
    · exact plain_pure _
    · split <;> exact plain_pure _

theorem plain_marksResult (x : Context) (subject marker : String) :
    (marksResult x subject marker).Plain := by
  refine plain_bind (plain_defaultFunction? x) fun f => ?_
  split
  · exact plain_pure _
  · split <;> exact plain_pure _

theorem classOf?_mem {c : Conventions} {name : String} {k : NamingClass}
    (h : c.classOf? name = some k) : k ∈ c.namingClasses :=
  List.mem_of_find?_eq_some h

theorem plain_withClass {check : NamingClass → Run Outcome}
    (h : ∀ k ∈ x.conventions.namingClasses, (check k).Plain) : (withClass check x).Plain := by
  unfold withClass
  split
  · exact plain_pure _
  · rename_i k hk
    exact h k (classOf?_mem hk)

theorem resultMarker_known {c : Conventions} (hc : c.Consistent) {k : NamingClass}
    (hk : k ∈ c.namingClasses) : ∃ marker, c.resultMarker k = .ok marker := by
  obtain ⟨marker, hm⟩ := Option.isSome_iff_exists.mp (hc.result_known k hk)
  exact ⟨marker, by simp [Conventions.resultMarker, hm]⟩

theorem plain_functionReturnType (hc : x.conventions.Consistent) :
    (functionReturnType.check x).Plain := by
  refine plain_withClass fun k hk => ?_
  obtain ⟨marker, hm⟩ := resultMarker_known hc hk
  refine plain_bind (plain_ofExcept ?_) fun marker => plain_marksResult x k.label marker
  intro e he
  rw [hm] at he
  cases he

theorem plain_controllerReturnType (hc : x.conventions.Consistent) :
    (controllerReturnType.check x).Plain := by
  obtain ⟨marker, hm⟩ := Option.isSome_iff_exists.mp hc.tuple_known
  unfold controllerReturnType
  simp only [hm]
  exact plain_marksResult x controllerSubject marker

theorem plain_functionDbImportsTypeOnly (x : Context) :
    (functionDbImportsTypeOnly.check x).Plain := by
  refine plain_bind (plain_module x) fun m => ?_
  split <;> exact plain_pure _

theorem plain_controllerDefaultExportIsFunction (x : Context) :
    (controllerDefaultExportIsFunction.check x).Plain := by
  refine plain_bind (plain_module x) fun m => ?_
  split
  · exact plain_pure _
  · exact plain_exportsFunction x "Controller"

theorem plain_controllerPortalExcludesFunctions (x : Context) :
    (controllerPortalExcludesFunctions.check x).Plain := by
  refine plain_bind (plain_module x) fun m => ?_
  dsimp only
  split
  · exact plain_pure _
  · split <;> exact plain_pure _

theorem plain_databaseFileNameMatchesDirectory (x : Context) :
    (databaseFileNameMatchesDirectory.check x).Plain := by
  unfold databaseFileNameMatchesDirectory onPath
  simp only
  split <;> exact plain_pure _

theorem plain_apiElysiaHasPrefix (x : Context) : (apiElysiaHasPrefix.check x).Plain := by
  refine plain_bind (plain_module x) fun m => ?_
  dsimp only
  split
  · exact plain_pure _
  · split <;> exact plain_pure _

theorem docOf_controller (c : Conventions) : ∃ doc, c.docOf "controller" = .ok doc :=
  ⟨_, rfl⟩

theorem plain_apiImportsController (x : Context) : (apiImportsController.check x).Plain := by
  refine plain_bind (plain_module x) fun m => ?_
  dsimp only
  split
  · exact plain_pure _
  · refine plain_bind (plain_ofExcept ?_) fun doc => plain_pure _
    intro e he
    obtain ⟨doc, hd⟩ := docOf_controller x.conventions
    rw [hd] at he
    cases he

theorem plain_noJavaScript (x : Context) : (noJavaScript.check x).Plain := by
  unfold noJavaScript onPath
  simp only
  split
  · exact plain_bind (plain_record _ _ _) fun _ => plain_pure _
  · exact plain_pure _

theorem plain_testDescribeWrapper (x : Context) : (testDescribeWrapper.check x).Plain := by
  unfold testDescribeWrapper
  simp only
  split
  · exact plain_pure _
  · split
    · exact plain_pure _
    · split
      · exact plain_bind (plain_record _ _ _) fun _ => plain_pure _
      · exact plain_bind (plain_pure _) fun _ => plain_pure _

/-- All but four rules see the file only, whatever the conventions are. Two of the others need a marker
of results. -/
theorem plain_check_or (x : Context) {r : Rule} (hr : r ∈ Registry.builtin.entries) :
    (r.check x).Plain ∨ (r = functionReturnType ∨ r = controllerReturnType) ∨
      r = functionPortalDatabase ∨ r = functionTestImportsTestingDb := by
  cases r, hr using builtin_cases with
  | functionReturnType => exact Or.inr (Or.inl (Or.inl rfl))
  | controllerReturnType => exact Or.inr (Or.inl (Or.inr rfl))
  | functionPortalDatabase => exact Or.inr (Or.inr (Or.inl rfl))
  | functionTestImportsTestingDb => exact Or.inr (Or.inr (Or.inr rfl))
  -- a path tells all
  | functionFileName | functionPathDepth | controllerFileName | databaseFileName | databasePathDepth
  | apiFileName | noTypeScriptInRoot => exact Or.inl (plain_pure _)
  | databaseFileNameMatchesDirectory => exact Or.inl (plain_databaseFileNameMatchesDirectory x)
  | noJavaScript => exact Or.inl (plain_noJavaScript x)
  -- the signature of the default export
  | functionDefaultExportIsFunction => exact Or.inl (plain_exportsFunction x _)
  | functionParameterCount => exact Or.inl (plain_withClass fun k _ => plain_countsParameters x _ _)
  | functionPortalParameter | functionArgsParameter =>
    exact Or.inl (plain_withClass fun k _ => plain_marksParameter x _ _ _ _)
  | controllerDefaultExportIsFunction => exact Or.inl (plain_controllerDefaultExportIsFunction x)
  | controllerParameterCount => exact Or.inl (plain_countsParameters x _ _)
  | controllerPortalParameter | controllerArgsParameter =>
    exact Or.inl (plain_marksParameter x _ _ _ _)
  -- the module, or its text
  | functionDefaultExport | functionSingleExport | apiImportsElysia | apiDefaultExportIsElysia =>
    exact Or.inl (plain_bind (plain_module x) fun _ => plain_pure _)
  | functionDbImportsTypeOnly => exact Or.inl (plain_functionDbImportsTypeOnly x)
  | controllerPortalExcludesFunctions => exact Or.inl (plain_controllerPortalExcludesFunctions x)
  | apiElysiaHasPrefix => exact Or.inl (plain_apiElysiaHasPrefix x)
  | apiImportsController => exact Or.inl (plain_apiImportsController x)
  | testDescribeWrapper => exact Or.inl (plain_testDescribeWrapper x)

/-- Only two rules look beyond the file and the conventions. -/
theorem plain_check (hc : x.conventions.Consistent) {r : Rule} (hr : r ∈ Registry.builtin.entries) :
    (r.check x).Plain ∨ r = functionPortalDatabase ∨ r = functionTestImportsTestingDb := by
  obtain hp | (rfl | rfl) | hr := plain_check_or x hr
  · exact Or.inl hp
  · exact Or.inl (plain_functionReturnType hc)
  · exact Or.inl (plain_controllerReturnType hc)
  · exact Or.inr hr

/-- The file that the rule on tests of database functions reads. -/
def tested (x : Context) : Path :=
  Path.parse (implementationFile x.absolutePath.toString (x.conventions.setting .testMarker))

/-- The rule on tests of database functions reads one file and is plain from there on. -/
theorem functionTestImportsTestingDb_eq (x : Context) :
    ∃ judge : Option String → Run Outcome, (∀ text, (judge text).Plain) ∧
      functionTestImportsTestingDb.check x =
        read >>= fun d => Run.ofExcept .read (d.readText? (tested x)) >>= judge := by
  refine ⟨_, fun text => ?_, rfl⟩
  split
  · exact plain_pure _
  · split
    · exact plain_pure _
    · refine plain_bind (plain_record _ _ _) fun _ => ?_
      exact plain_bind (plain_module x) fun _ => plain_pure _

end Rule

/-! What holds of single steps, and of steps put together, holds of the checks of the known rules. -/

namespace Run.Compositional

variable {P : (α : Type) → Run α → Prop} {x : Context}

theorem functionReturnType (hP : Compositional P) :
    P Outcome (Rule.functionReturnType.check x) := by
  unfold Rule.functionReturnType Rule.withClass
  dsimp only
  split
  · exact hP.pure _
  · exact hP.bind (hP.ofExcept _ _) fun marker => hP.plain (Rule.plain_marksResult x _ marker)

theorem controllerReturnType (hP : Compositional P) :
    P Outcome (Rule.controllerReturnType.check x) := by
  unfold Rule.controllerReturnType
  dsimp only
  split
  · exact hP.plain (Rule.plain_marksResult x _ _)
  · exact hP.fail _

theorem functionPortalDatabase (hP : Compositional P) :
    P Outcome (Rule.functionPortalDatabase.check x) := by
  unfold Rule.functionPortalDatabase
  dsimp only
  split
  · exact hP.pure _
  · refine hP.bind hP.catalog fun k => ?_
    split
    · exact hP.pure _
    · split <;> exact hP.pure _

theorem functionTestImportsTestingDb (hP : Compositional P) :
    P Outcome (Rule.functionTestImportsTestingDb.check x) := by
  obtain ⟨judge, hj, he⟩ := Rule.functionTestImportsTestingDb_eq x
  rw [he]
  refine hP.bind hP.read fun d => ?_
  exact hP.bind (hP.ofExcept _ _) fun text => hP.plain (hj text)

theorem check (hP : Compositional P) {r : Rule} (hr : r ∈ Registry.builtin.entries) :
    P Outcome (r.check x) := by
  obtain hp | (rfl | rfl) | rfl | rfl := Rule.plain_check_or x hr
  · exact hP.plain hp
  · exact hP.functionReturnType
  · exact hP.controllerReturnType
  · exact hP.functionPortalDatabase
  · exact hP.functionTestImportsTestingDb

end Run.Compositional

/-- No check depends on what was known before it. -/
theorem Rule.steady_check {d : Volume} {x : Context} (hc : x.conventions.Consistent) {r : Rule}
    (hr : r ∈ Registry.builtin.entries) : (r.check x).Steady d := by
  obtain hp | rfl | rfl := plain_check hc hr
  · exact hp.steady
  · exact compositional_steady.functionPortalDatabase
  · exact compositional_steady.functionTestImportsTestingDb

end ConventionLint
