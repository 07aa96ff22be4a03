import ConventionLint.Proofs.FunctionConvention
import ConventionLint.Proofs.PathPhase

/-! Content that is no module: of the rules that need content, only the two that search the text have
something to say of it. -/
namespace ConventionLint

open Run

variable {x : Context} {e : ParseFailure} {r : Rule} {d : Volume} {s : RunState}

namespace Run

/-- A check that does not apply, or fails for want of a module. -/
def Mute (e : ParseFailure) (r : Run Outcome) : Prop :=
  ∀ d s, (∃ reason, (r.exec d s).1 = .ok (.skipped reason)) ∨ (r.exec d s).1 = .error (.parse e)

theorem mute_skipped (reason : String) : Mute e (pure (.skipped reason)) :=
  fun _ _ => Or.inl ⟨reason, rfl⟩

theorem mute_of_eq_fail {r : Run Outcome} (h : r = fail (.parse e)) : Mute e r := by
  intro d s
  rw [h]
  exact Or.inr rfl

theorem mute_record_bind {level : Level} {source : LogSource} {text : String}
    {f : Unit → Run Outcome} (h : Mute e (f ())) : Mute e (record level source text >>= f) := by
  intro d s
  rw [exec_bind_ok (exec_record level source text)]
  exact h d _

end Run

namespace Rule

theorem mute_withClass {check : NamingClass → Run Outcome}
    (h : ∀ k ∈ x.conventions.namingClasses, Mute e (check k)) : Mute e (withClass check x) := by
  unfold withClass
  split
  · exact mute_skipped _
  · rename_i k hk
    exact h k (classOf?_mem hk)

section Checks

variable (hp : Module.parse x.content x.file = .error e)
include hp

theorem module_bind_error {α : Type} (f : Module → Run α) : x.module >>= f = fail (.parse e) := by
  rw [Context.module, hp, ofExcept_error_bind]

theorem mute_module_bind (f : Module → Run Outcome) : Mute e (x.module >>= f) :=
  mute_of_eq_fail (module_bind_error hp f)

theorem mute_defaultFunction?_bind (f : Option FunctionShape → Run Outcome) :
    Mute e (defaultFunction? x >>= f) := by
  refine mute_of_eq_fail ?_
  rw [defaultFunction?, module_bind_error hp, fail_bind]

/-- The position of a role is looked up before the module. -/
theorem mute_marksParameter (subject : String) (roles : List ParameterRole) (role : ParameterRole)
    (ignoreCase : Bool) : Mute e (marksParameter x subject roles role ignoreCase) := by
  unfold marksParameter
  split
  · exact mute_skipped _
  · exact mute_defaultFunction?_bind hp _

theorem mute_functionReturnType (hc : x.conventions.Consistent) :
    Mute e (functionReturnType.check x) := by
  refine mute_withClass fun k hk => ?_
  obtain ⟨marker, hm⟩ := resultMarker_known hc hk
  rw [hm, ofExcept_ok_bind]
  exact mute_defaultFunction?_bind hp _

theorem mute_controllerReturnType (hc : x.conventions.Consistent) :
    Mute e (controllerReturnType.check x) := by
  obtain ⟨marker, hm⟩ := Option.isSome_iff_exists.mp hc.tuple_known
  unfold controllerReturnType
  simp only [hm]
  exact mute_defaultFunction?_bind hp _

/-- The rule on tests of database functions asks for the module once it knows what is tested. -/
theorem exists_mute_judge : ∃ judge : Option String → Run Outcome, (∀ text, Mute e (judge text)) ∧
    functionTestImportsTestingDb.check x =
      read >>= fun d => Run.ofExcept .read (d.readText? (tested x)) >>= judge := by
  refine ⟨_, fun text => ?_, rfl⟩
  split
  · exact mute_skipped _
  · split
    · exact mute_skipped _
    · exact mute_record_bind (mute_module_bind hp _)

end Checks

/-- The rules that search the text of a file and never ask for its module. -/
def textRules : List String := ["function-portal-database", "general-test-describe-wrapper"]

/-- All other rules that need content are mute, but for the one that reads a second file first. -/
theorem mute_check (hp : Module.parse x.content x.file = .error e) (hc : x.conventions.Consistent)
    (hr : r ∈ Registry.builtin.entries) (hn : r.needsContent = true) (ht : r.name ∉ textRules) :
    Mute e (r.check x) ∨ r = functionTestImportsTestingDb := by
  cases r, hr using builtin_cases with
  -- the function area
  | functionDefaultExport | functionDefaultExportIsFunction | functionSingleExport =>
    exact Or.inl (mute_module_bind hp _)
  | functionParameterCount =>
    exact Or.inl (mute_withClass fun k _ => mute_defaultFunction?_bind hp _)
  | functionPortalParameter | functionArgsParameter =>
    exact Or.inl (mute_withClass fun k _ => mute_marksParameter hp _ _ _ _)
  | functionReturnType => exact Or.inl (mute_functionReturnType hp hc)
  | functionDbImportsTypeOnly => exact Or.inl (mute_module_bind hp _)
  | functionTestImportsTestingDb => exact Or.inr rfl
  -- the controller area
  | controllerDefaultExportIsFunction => exact Or.inl (mute_module_bind hp _)
  | controllerParameterCount => exact Or.inl (mute_defaultFunction?_bind hp _)
  | controllerPortalParameter | controllerArgsParameter =>
    exact Or.inl (mute_marksParameter hp _ _ _ _)
  | controllerReturnType => exact Or.inl (mute_controllerReturnType hp hc)
  | controllerPortalExcludesFunctions => exact Or.inl (mute_module_bind hp _)
  -- the area of routes
  | apiImportsElysia | apiDefaultExportIsElysia | apiElysiaHasPrefix | apiImportsController =>
    exact Or.inl (mute_module_bind hp _)
  -- the rules that search the text, and those on paths
  | functionPortalDatabase | testDescribeWrapper => exact (ht (by decide)).elim
  | _ => cases hn

theorem notApplicable_of_check
    (h : (∃ reason, ((r.check x).exec d s).1 = .ok (.skipped reason)) ∨
      ((r.check x).exec d s).1 = .error (.parse e)) :
    ∃ reason, ((r.evaluate x).exec d s).1 = .ok (.notApplicable reason) := by
  rw [exec_evaluate_fst, exec_outcome_fst]
  cases r.governs x.toPlace with
  | false => exact ⟨_, rfl⟩
  | true =>
    rcases h with ⟨reason, h⟩ | h
    · rw [h]
      exact ⟨_, rfl⟩
    · rw [h]
      exact ⟨_, rfl⟩

/-- The rule on tests of database functions does not apply, unless it cannot read what is tested. -/
theorem evaluate_functionTestImportsTestingDb (hp : Module.parse x.content x.file = .error e) :
    (∃ reason, ((functionTestImportsTestingDb.evaluate x).exec d s).1
        = .ok (.notApplicable reason)) ∨
      ∃ f, d.readText? (tested x) = .error f ∧
        ((functionTestImportsTestingDb.evaluate x).exec d s).1 = .error (.read f) := by
  obtain ⟨judge, hj, hcheck⟩ := exists_mute_judge hp
  cases ht : d.readText? (tested x) with
  | ok text =>
    refine Or.inl (notApplicable_of_check (e := e) ?_)
    rw [hcheck, exec_bind_ok exec_read, ht, ofExcept_ok_bind]
    exact hj text d s
  | error f =>
    have hx : ((functionTestImportsTestingDb.check x).exec d s).1 = .error (.read f) := by
      rw [hcheck, exec_bind_ok exec_read, ht, ofExcept_error_bind]
      rfl
    rw [exec_evaluate_fst, exec_outcome_fst, hx]
    cases functionTestImportsTestingDb.governs x.toPlace with
    | false => exact Or.inl ⟨_, rfl⟩
    | true => exact Or.inr ⟨f, rfl, rfl⟩

/-- A rule that needs a module does not apply to content that is none, unless it fails before that. -/
theorem evaluate_unparsed (hp : Module.parse x.content x.file = .error e)
    (hc : x.conventions.Consistent) (hr : r ∈ Registry.builtin.entries)
    (hn : r.needsContent = true) (ht : r.name ∉ textRules) :
    (∃ reason, ((r.evaluate x).exec d s).1 = .ok (.notApplicable reason)) ∨
      r.name = "function-test-imports-testing-db" ∧ ∃ f, d.readText? (tested x) = .error f ∧
        ((r.evaluate x).exec d s).1 = .error (.read f) := by
  rcases mute_check hp hc hr hn ht with hm | rfl
  · exact Or.inl (notApplicable_of_check (hm d s))
  · exact (evaluate_functionTestImportsTestingDb hp).imp_right fun h => ⟨rfl, h⟩

theorem exists_fail_of_verdict {y : Diagnostic} (h : r.verdict d s x = .ok (some y)) :
    ∃ message, ((r.evaluate x).exec d s).1 = .ok (.fail (some message)) := by
  rw [verdict_eq, ← exec_evaluate_fst] at h
  cases ho : ((r.evaluate x).exec d s).1 with
  | error f =>
    rw [ho] at h
    cases h
  | ok o =>
    rw [ho] at h
    obtain ⟨message, hmessage, -⟩ := Option.map_eq_some_iff.mp (Except.ok.inj h)
    cases o with
    | pass => cases hmessage
    | notApplicable reason => cases hmessage
    | fail text =>
      cases hmessage
      exact ⟨message, rfl⟩

end Rule

/-- On content that is no module, a rule that needs a module does not apply, or fails to read the file
that is tested; so only rules on paths and the two on texts report something. -/
theorem unparsed_content {v : Data.Value} (hv : Conventions.ofValue v = .ok x.conventions)
    (hp : Module.parse x.content x.file = .error e) :
    (∀ r ∈ Registry.builtin.entries, r.needsContent = true → r.name ∉ Rule.textRules → ∀ d s,
      (∃ reason, ((r.evaluate x).exec d s).1 = .ok (.notApplicable reason)) ∨
        r.name = "function-test-imports-testing-db" ∧
          ∃ f, d.readText? (Rule.tested x) = .error f ∧
            ((r.evaluate x).exec d s).1 = .error (.read f)) ∧
    ∀ names pathOnly d s ds, ((Registry.builtin.dispatch x names pathOnly).exec d s).1 = .ok ds →
      ∀ y ∈ ds, Registry.builtin.isOnPath y.rule = true ∨ y.rule ∈ Rule.textRules := by
  have hc : x.conventions.Consistent := Conventions.ofValue_consistent hv
  refine ⟨fun r hr hn ht d s => Rule.evaluate_unparsed hp hc hr hn ht, ?_⟩
  intro names pathOnly d s ds hds y hy
  rw [exec_dispatch_fst fun r hr => Rule.steady_check hc hr] at hds
  split at hds
  · cases hds
  · cases hds
    obtain ⟨r, hr, hverdict⟩ := Rule.mem_shares_diagnostics.mp hy
    have hr := Registry.mem_entries_of_mem_select hr
    rw [Rule.rule_of_verdict hverdict]
    cases hn : r.needsContent with
    | false => exact Or.inl (Lint.isOnPath_iff.mpr ⟨r, hr, hn, rfl⟩)
    | true =>
      refine Or.inr (Classical.byContradiction fun ht => ?_)
      obtain ⟨message, hfail⟩ := Rule.exists_fail_of_verdict hverdict
      rcases Rule.evaluate_unparsed (d := d) (s := s) hp hc hr hn ht with ⟨reason, h⟩ | ⟨-, f, -, h⟩
      · rw [h] at hfail
        cases hfail
      · rw [h] at hfail
        cases hfail

/-- A function that breaks off, two directories below its area. -/
def brokenOff : Context where
  directory := ⟨.root, ["p"]⟩
  file := "src/function/a/b/fx.c.ts"
  conventions := {}
  workingDirectory := ⟨.root, []⟩
  content := "export default function f("

theorem unparsed_content_brokenOff :
    Conventions.ofValue (.map []) = .ok brokenOff.conventions ∧
    (∃ e, Module.parse brokenOff.content brokenOff.file = .error e) ∧
    (∃ reason, ((Rule.functionReturnType.evaluate brokenOff).exec {}
      (.fresh brokenOff.directory {})).1 = .ok (.notApplicable reason)) ∧
    ∃ ds, ((Registry.builtin.dispatch brokenOff none false).exec {}
        (.fresh brokenOff.directory {})).1 = .ok ds ∧
      (∃ y ∈ ds, y.rule = "function-path-depth") ∧
      ∀ y ∈ ds, Registry.builtin.isOnPath y.rule = true ∨ y.rule ∈ Rule.textRules := by
  have hv : Conventions.ofValue (.map []) = .ok brokenOff.conventions := rfl
  have hnone : (Module.parse brokenOff.content brokenOff.file).toOption.isNone = true := by
    decide +kernel
  obtain ⟨e, hp⟩ := exists_error_of_isNone hnone
  have hx : ¬ brokenOff.Stops {} (.fresh brokenOff.directory {}) :=
    fun hx => absurd hx.1 (by decide +kernel)
  have hds := dispatch_of_not_stops (Conventions.ofValue_consistent hv) hx
  obtain ⟨hevaluate, hdispatch⟩ := unparsed_content hv hp
  have hm : Rule.functionReturnType ∈ Registry.builtin.entries := by simp [Registry.builtin]
  refine ⟨hv, ⟨_, hp⟩, ?_, _, hds, ?_, hdispatch _ _ _ _ _ hds⟩
  · obtain h | ⟨hname, -⟩ := hevaluate _ hm rfl (by decide) {} (.fresh brokenOff.directory {})
    · exact h
    · exact absurd hname (by decide)
  · have hy : Rule.functionPathDepth.verdict {} (.fresh brokenOff.directory {}) brokenOff
        = .ok (some _) := rfl
    have hd : Rule.functionPathDepth ∈ Registry.builtin.entries := by simp [Registry.builtin]
    have hselect : Rule.functionPathDepth ∈ Registry.builtin.select brokenOff.toPlace none false :=
      Registry.mem_select.mpr ⟨hd, by decide +kernel, by simp⟩
    exact ⟨_, Rule.mem_shares_diagnostics.mpr ⟨_, hselect, hy⟩, rfl⟩

end ConventionLint
