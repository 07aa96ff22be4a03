import ConventionLint.Proofs.Influence

/-! Files that look the same to all rules, wherever they are. -/
namespace ConventionLint

open Run

/-- Two files with the same content under the same conventions, whose paths have in common what
rules look at. -/
structure Context.Twins (x x' : Context) : Prop where
  conventions : x.conventions = x'.conventions
  content : x.content = x'.content
  relativePath : x.relativePath? = x'.relativePath?
  fileName : x.fileName = x'.fileName
  isTest : x.isTest = x'.isTest
  dialect : Module.dialect? x.file = Module.dialect? x'.file

variable {x x' : Context}

namespace Context.Twins

variable (h : x.Twins x')
include h

theorem area : x.area? = x'.area? := by
  unfold Place.area?
  rw [h.relativePath, h.conventions]

theorem areaRelative : x.areaRelative? = x'.areaRelative? := by
  unfold Place.areaRelative?
  rw [h.area, h.relativePath, h.conventions]

theorem areaParts : x.areaParts = x'.areaParts := by
  unfold Place.areaParts
  rw [h.areaRelative]

theorem docPointer : x.docPointer = x'.docPointer := by
  unfold Place.docPointer
  rw [h.area, h.conventions]

theorem governs (r : Rule) : r.governs x.toPlace = r.governs x'.toPlace := by
  unfold Rule.governs Place.isIgnored
  rw [h.relativePath, h.area, h.isTest]

/-- The module of the file is the same, or there is none for either. -/
theorem parse :
    (Module.parse x.content x.file).toOption = (Module.parse x'.content x'.file).toOption := by
  unfold Module.parse
  rw [h.dialect, h.content]
  cases Module.dialect? x'.file with
  | none => rfl
  | some dialect =>
    dsimp only
    cases Source.parse dialect x'.content.toList <;> rfl

end Context.Twins

/-- Runs that are the same but for the files whose modules they ask for. -/
inductive Context.Parallel (x x' : Context) {α : Type} : Run α → Run α → Prop
  | refl (r : Run α) : Parallel x x' r r
  | module {f f' : Module → Run α} (h : ∀ m, Parallel x x' (f m) (f' m)) :
    Parallel x x' (x.module >>= f) (x'.module >>= f')

namespace Context.Parallel

variable {α β : Type} {r r' : Run α}

theorem ofModule (f : Module → Run α) : x.Parallel x' (x.module >>= f) (x'.module >>= f) :=
  module fun m => refl (f m)

theorem bind (h : x.Parallel x' r r') (f : α → Run β) : x.Parallel x' (r >>= f) (r' >>= f) := by
  induction h with
  | refl r => exact refl _
  | module _ ih =>
    rw [bind_assoc, bind_assoc]
    exact module ih

theorem module_bind_ok {x : Context} {m : Module} (h : Module.parse x.content x.file = .ok m)
    (f : Module → Run α) : x.module >>= f = f m := by
  rw [Context.module, h, ofExcept_ok_bind]

/-- Parallel runs end with the same result, or fail both. -/
theorem toOption_exec (h : x.Parallel x' r r') (hx : x.Twins x') (hr : r.Plain) {d d' : Volume}
    {s s' : RunState} : (r.exec d s).1.toOption = (r'.exec d' s').1.toOption := by
  induction h with
  | refl r =>
    obtain ⟨a, log, he, -⟩ := hr
    rw [he, he]
  | @module f f' _ ih =>
    obtain ⟨e, e', hp, hp'⟩ | ⟨m, hp, hp'⟩ := cases_of_toOption hx.parse
    · rw [Context.module, Context.module, hp, hp', ofExcept_error_bind, ofExcept_error_bind]
      rfl
    · rw [module_bind_ok hp] at hr ⊢
      rw [module_bind_ok hp']
      exact ih m hr

end Context.Parallel

namespace Rule

open Context

theorem parallel_defaultFunction? (x x' : Context) :
    x.Parallel x' (defaultFunction? x) (defaultFunction? x') :=
  .ofModule _

theorem parallel_onPath {name area description : String} {targets : Targets}
    {check : Place → Run Outcome} (hp : check x.toPlace = check x'.toPlace) :
    x.Parallel x' ((onPath name area description targets check).check x)
      ((onPath name area description targets check).check x') := by
  have hc : (onPath name area description targets check).check x
      = (onPath name area description targets check).check x' := hp
  rw [hc]
  exact .refl _

variable (h : x.Twins x')
include h

theorem parallel_exportsFunction (subject : String) :
    x.Parallel x' (exportsFunction x subject) (exportsFunction x' subject) := by
  unfold exportsFunction
  rw [h.docPointer]
  exact .ofModule _

theorem parallel_countsParameters (subject : String) (roles : List ParameterRole) :
    x.Parallel x' (countsParameters x subject roles) (countsParameters x' subject roles) := by
  unfold countsParameters found
  rw [h.conventions, h.docPointer]
  exact (parallel_defaultFunction? x x').bind _

theorem parallel_marksParameter (subject : String) (roles : List ParameterRole)
    (role : ParameterRole) (ignoreCase : Bool) :
    x.Parallel x' (marksParameter x subject roles role ignoreCase)
      (marksParameter x' subject roles role ignoreCase) := by
  unfold marksParameter found
  rw [h.conventions, h.docPointer]
  split
  · exact .refl _
  · exact (parallel_defaultFunction? x x').bind _

theorem parallel_marksResult (subject marker : String) :
    x.Parallel x' (marksResult x subject marker) (marksResult x' subject marker) := by
  unfold marksResult found
  rw [h.docPointer]
  exact (parallel_defaultFunction? x x').bind _

theorem parallel_withClass {check check' : NamingClass → Run Outcome}
    (hk : ∀ k, x.Parallel x' (check k) (check' k)) :
    x.Parallel x' (withClass check x) (withClass check' x') := by
  unfold withClass
  rw [h.conventions, h.fileName]
  split
  · exact .refl _
  · exact hk _

theorem parallel_functionReturnType :
    x.Parallel x' (functionReturnType.check x) (functionReturnType.check x') := by
  refine parallel_withClass h fun k => ?_
  rw [h.conventions]
  cases x'.conventions.resultMarker k with
  | error e =>
    rw [ofExcept_error_bind, ofExcept_error_bind]
    exact .refl _
  | ok marker =>
    rw [ofExcept_ok_bind, ofExcept_ok_bind]
    exact parallel_marksResult h k.label marker

theorem parallel_controllerDefaultExportIsFunction :
    x.Parallel x' (controllerDefaultExportIsFunction.check x)
      (controllerDefaultExportIsFunction.check x') := by
  unfold controllerDefaultExportIsFunction
  dsimp only
  rw [h.fileName, h.docPointer]
  refine .module fun m => ?_
  split
  · exact .refl _
  · exact parallel_exportsFunction h "Controller"

theorem parallel_controllerReturnType :
    x.Parallel x' (controllerReturnType.check x) (controllerReturnType.check x') := by
  unfold controllerReturnType
  dsimp only
  rw [h.conventions]
  split
  · exact parallel_marksResult h controllerSubject _
  · exact .refl _

theorem parallel_databaseFileNameMatchesDirectory :
    x.Parallel x' (databaseFileNameMatchesDirectory.check x)
      (databaseFileNameMatchesDirectory.check x') := by
  unfold databaseFileNameMatchesDirectory
  refine parallel_onPath ?_
  unfold databaseRoot
  rw [h.areaParts, h.conventions, h.fileName, h.docPointer]

/-- All rules but one treat twins the same way. -/
theorem parallel_check {r : Rule} (hr : r ∈ Registry.builtin.entries)
    (ht : r ≠ functionTestImportsTestingDb) : x.Parallel x' (r.check x) (r.check x') := by
  cases r, hr using builtin_cases with
  -- the function area
  | functionFileName =>
    exact parallel_onPath (by simp only [foundName, h.conventions, h.fileName, h.docPointer])
  | functionPathDepth =>
    exact parallel_onPath (by simp only [h.areaParts, h.areaRelative, h.docPointer])
  | functionDefaultExport =>
    simp only [functionDefaultExport, h.fileName, h.docPointer]
    exact .ofModule _
  | functionDefaultExportIsFunction => exact parallel_exportsFunction h "Function"
  | functionSingleExport =>
    simp only [functionSingleExport, h.conventions, h.docPointer]
    exact .ofModule _
  | functionParameterCount => exact parallel_withClass h fun k => parallel_countsParameters h _ _
  | functionPortalParameter | functionArgsParameter =>
    exact parallel_withClass h fun k => parallel_marksParameter h _ _ _ _
  | functionReturnType => exact parallel_functionReturnType h
  | functionPortalDatabase =>
    simp only [functionPortalDatabase, h.conventions, h.content, h.docPointer]
    exact .refl _
  | functionDbImportsTypeOnly =>
    simp only [functionDbImportsTypeOnly, h.conventions, h.docPointer]
    exact .ofModule _
  | functionTestImportsTestingDb => exact (ht rfl).elim
  -- the controller area
  | controllerFileName =>
    exact parallel_onPath (by simp only [foundName, h.conventions, h.fileName, h.docPointer])
  | controllerDefaultExportIsFunction => exact parallel_controllerDefaultExportIsFunction h
  | controllerParameterCount =>
    simp only [controllerParameterCount, h.conventions]
    exact parallel_countsParameters h _ _
  | controllerPortalParameter =>
    simp only [controllerPortalParameter, h.conventions]
    exact parallel_marksParameter h _ _ _ _
  | controllerArgsParameter =>
    simp only [controllerArgsParameter, h.conventions]
    exact parallel_marksParameter h _ _ _ _
  | controllerReturnType => exact parallel_controllerReturnType h
  | controllerPortalExcludesFunctions =>
    simp only [controllerPortalExcludesFunctions, h.conventions, h.content, h.docPointer]
    exact .ofModule _
  -- the database area
  | databaseFileName =>
    exact parallel_onPath (by simp only [foundName, h.conventions, h.fileName, h.docPointer])
  | databaseFileNameMatchesDirectory => exact parallel_databaseFileNameMatchesDirectory h
  | databasePathDepth =>
    exact parallel_onPath (by
      simp only [databaseRoot, h.areaParts, h.conventions, h.relativePath, h.docPointer])
  -- the area of routes
  | apiFileName =>
    exact parallel_onPath (by simp only [foundName, h.conventions, h.fileName, h.docPointer])
  | apiImportsElysia =>
    simp only [apiImportsElysia, h.fileName, h.docPointer]
    exact .ofModule _
  | apiDefaultExportIsElysia =>
    simp only [apiDefaultExportIsElysia, h.conventions, h.fileName, h.docPointer]
    exact .ofModule _
  | apiElysiaHasPrefix =>
    simp only [apiElysiaHasPrefix, h.conventions, h.fileName, h.docPointer]
    exact .ofModule _
  | apiImportsController =>
    simp only [apiImportsController, h.conventions, h.fileName, h.docPointer]
    exact .ofModule _
  -- all areas
  | noJavaScript => exact parallel_onPath (by simp only [h.fileName, h.relativePath])
  | noTypeScriptInRoot => exact parallel_onPath (by simp only [h.conventions, h.relativePath])
  | testDescribeWrapper =>
    simp only [testDescribeWrapper, h.conventions, h.content, h.relativePath]
    exact .refl _

omit h

variable {d d' : Volume} {s s' : RunState} {r : Rule}

/-- What a rule says of a file, if it is for it. -/
def message? (d : Volume) (s : RunState) (x : Context) (r : Rule) : Option String :=
  ((r.check x).exec d s).1.toOption.bind Outcome.message?

theorem diagnostics_share : (r.share d s x).diagnostics =
    if r.governs x.toPlace then
      ((r.message? d s x).map fun text => (⟨r.name, text, shownPath x⟩ : Diagnostic)).toList
    else [] := by
  unfold share message?
  rw [verdict_eq, exec_outcome_fst]
  cases r.governs x.toPlace with
  | false => rfl
  | true =>
    simp only [if_true]
    cases ((r.check x).exec d s).1 with
    | ok o => rfl
    | error e =>
      dsimp only
      cases e.isParse <;> rfl

/-- The rule on tests of database functions is silent if the function cannot be read. -/
theorem message?_of_unread (h : (d.readText (tested x)).toOption = none) :
    functionTestImportsTestingDb.message? d s x = none := by
  have hread : ∀ text, d.readText? (tested x) ≠ .ok (some text) := by
    intro text ht
    unfold Volume.readText? at ht
    split at ht
    · cases ht
    · cases ht
    · rename_i hr
      rw [hr] at h
      cases h
  unfold message? functionTestImportsTestingDb
  unfold tested at hread
  dsimp only
  rw [exec_bind_ok exec_read]
  rcases hr : d.readText? (Path.parse (implementationFile x.absolutePath.toString
    (x.conventions.setting .testMarker))) with e | _ | text
  · rw [ofExcept_error_bind]
    rfl
  · rw [ofExcept_ok_bind]
    rfl
  · exact (hread text hr).elim

theorem message?_functionTestImportsTestingDb (h : x.Twins x')
    (ht : (d.readText (tested x)).toOption = (d'.readText (tested x')).toOption) :
    functionTestImportsTestingDb.message? d s x
      = functionTestImportsTestingDb.message? d' s' x' := by
  obtain ⟨e, e', hr, hr'⟩ | ⟨text, hr, hr'⟩ := cases_of_toOption ht
  · rw [message?_of_unread (by rw [hr]; rfl), message?_of_unread (by rw [hr']; rfl)]
  · have hread : d.readText? (tested x) = .ok (some text) := by
      unfold Volume.readText?
      rw [hr]
    have hread' : d'.readText? (tested x') = .ok (some text) := by
      unfold Volume.readText?
      rw [hr']
    unfold message? functionTestImportsTestingDb
    unfold tested at hread hread'
    dsimp only
    rw [exec_bind_ok exec_read, exec_bind_ok exec_read, hread, hread', ofExcept_ok_bind,
      ofExcept_ok_bind, h.conventions, h.docPointer]
    dsimp only
    cases portalVariable? x'.conventions text with
    | none => rfl
    | some database =>
      dsimp only
      rw [exec_bind_ok (exec_record ..), exec_bind_ok (exec_record ..)]
      have hplain : ∀ f : Module → Outcome, (x.module >>= fun m => pure (f m)).Plain :=
        fun f => plain_bind (plain_module x) fun _ => plain_pure _
      rw [Context.Parallel.toOption_exec (.ofModule _) h (hplain _)]

/-- A rule says the same of twins, if the databases are the same and so is what the twins test. -/
theorem message?_twins (h : x.Twins x') (hc : x.conventions.Consistent)
    (hr : r ∈ Registry.builtin.entries) (hk : (s.known d).toOption = (s'.known d').toOption)
    (ht : r = functionTestImportsTestingDb →
      (d.readText (tested x)).toOption = (d'.readText (tested x')).toOption) :
    r.message? d s x = r.message? d' s' x' := by
  by_cases hrt : r = functionTestImportsTestingDb
  · subst hrt
    exact message?_functionTestImportsTestingDb h (ht rfl)
  · unfold message?
    obtain hp | rfl | rfl := plain_check hc hr
    · rw [(parallel_check h hr hrt).toOption_exec h hp]
    · have hcheck : functionPortalDatabase.check x = functionPortalDatabase.check x' := by
        simp only [functionPortalDatabase, h.conventions, h.content, h.docPointer]
      rw [hcheck]
      obtain ⟨o, ho⟩ | ⟨judge, hj⟩ := exec_functionPortalDatabase x'
      · rw [ho, ho]
      · have htold : ∀ e : Except ScanError Catalog,
            ((e.mapError Failure.scan).map judge).toOption = e.toOption.map judge := by
          rintro (_ | _) <;> rfl
        rw [hj, hj, htold, htold, hk]
    · exact (hrt rfl).elim

/-- What a rule reports on twins is the same. -/
theorem diagnostics_share_twins (h : x.Twins x') (hc : x.conventions.Consistent)
    (hr : r ∈ Registry.builtin.entries) (hk : (s.known d).toOption = (s'.known d').toOption)
    (hshown : shownPath x = shownPath x')
    (ht : x.area? = some .function → x.isTest = true →
      (d.readText (tested x)).toOption = (d'.readText (tested x')).toOption) :
    (r.share d s x).diagnostics = (r.share d' s' x').diagnostics := by
  rw [diagnostics_share, diagnostics_share, ← h.governs r, hshown]
  cases hg : r.governs x.toPlace with
  | false => rfl
  | true =>
    rw [message?_twins h hc hr hk]
    rintro rfl
    obtain ⟨ha, hx⟩ := (governs_function_iff (b := true) rfl rfl).mp hg
    exact ht ha hx

end Rule

end ConventionLint
