import ConventionLint.Proofs.Completion
import ConventionLint.Proofs.Order
import ConventionLint.Proofs.Overwrite

/-! What is reported on a file depends on few other files: the one with the conventions, connection
modules, and the one that a test is for. -/
namespace ConventionLint

open Run

variable {d : Disk} {s : RunState} {x : Context} {r : Rule} {place : List String}
  {bytes : List UInt8}

namespace Rule

theorem exec_catalog_bind {f : Catalog → Run Outcome} (hf : ∀ k, ∃ o, f k = pure o) :
    ∃ judge : Catalog → Outcome, ∀ (d : Volume) s,
      ((catalog >>= f).exec d s).1 = ((s.known d).mapError .scan).map judge := by
  obtain ⟨judge, hj⟩ := Classical.axiomOfChoice hf
  refine ⟨judge, fun d s => ?_⟩
  have hk := (exec_catalog d s).1
  rw [← hk]
  rcases hx : catalog.exec d s with ⟨_ | k, t⟩
  · rw [exec_bind_error hx]
    rfl
  · rw [exec_bind_ok hx, hj]
    rfl

/-- The rule on portals sees no more of a disk than the catalog, if it looks at it at all. -/
theorem exec_functionPortalDatabase (x : Context) :
    (∃ o, ∀ (d : Volume) s, ((functionPortalDatabase.check x).exec d s).1 = .ok o) ∨
      ∃ judge : Catalog → Outcome, ∀ (d : Volume) s, ((functionPortalDatabase.check x).exec d s).1
        = ((s.known d).mapError .scan).map judge := by
  unfold functionPortalDatabase
  dsimp only
  cases portalVariable? x.conventions x.content with
  | none => exact Or.inl ⟨_, fun d s => rfl⟩
  | some name =>
    refine Or.inr (exec_catalog_bind fun k => ?_)
    split
    · exact ⟨_, rfl⟩
    · split <;> exact ⟨_, rfl⟩

theorem verdict_congr {d d' : Volume} {s' : RunState}
    (h : ((r.check x).exec d s).1 = ((r.check x).exec d' s').1) :
    r.verdict d s x = r.verdict d' s' x := by
  rw [verdict_eq, verdict_eq, exec_outcome_fst, exec_outcome_fst, h]

theorem shares_congr {d d' : Volume} {s' : RunState} {rs : List Rule}
    (h : ∀ r ∈ rs, r.share d s x = r.share d' s' x) : shares d s x rs = shares d' s' x rs := by
  have hd : rs.flatMap (fun r => (r.share d s x).diagnostics)
      = rs.flatMap fun r => (r.share d' s' x).diagnostics :=
    List.flatMap_congr fun r hr => by rw [h r hr]
  have he : rs.flatMap (fun r => (r.share d s x).errors)
      = rs.flatMap fun r => (r.share d' s' x).errors :=
    List.flatMap_congr fun r hr => by rw [h r hr]
  unfold shares
  rw [hd, he]

/-- A file that is the one a test of the function area is for. -/
def Tests (x : Context) (place : List String) : Prop :=
  x.area? = some .function ∧ x.isTest = true ∧ Path.resolve x.workingDirectory (tested x) = place

/-- The verdict of a rule on a file does not depend on another one, unless that tells the databases or
is the one that is tested. -/
theorem verdict_overwrite (hc : x.conventions.Consistent) (hr : r ∈ Registry.builtin.entries)
    (hk : s.known (d.overwrite place bytes) = s.known d)
    (hw : x.workingDirectory = d.workingDirectory) (ht : ¬ Tests x place) :
    r.verdict (d.overwrite place bytes) s x = r.verdict d s x := by
  obtain ⟨a, log, hx, -⟩ | rfl | rfl := plain_check hc hr
  · exact verdict_congr (by rw [hx, hx])
  · refine verdict_congr ?_
    obtain ⟨o, ho⟩ | ⟨judge, hj⟩ := exec_functionPortalDatabase x
    · rw [ho, ho]
    · rw [hj, hj, hk]
  · cases hg : functionTestImportsTestingDb.governs x.toPlace with
    | false => rw [verdict_of_not_governs hg, verdict_of_not_governs hg]
    | true =>
      obtain ⟨ha, hx⟩ := (governs_function_iff (b := true) rfl rfl).mp hg
      have hp : Path.resolve d.workingDirectory (tested x) ≠ place :=
        fun he => ht ⟨ha, hx, hw ▸ he⟩
      obtain ⟨judge, hj, he⟩ := functionTestImportsTestingDb_eq x
      refine verdict_congr ?_
      rw [he, exec_bind_ok exec_read, exec_bind_ok exec_read, Disk.readText?_overwrite hp]
      cases d.readText? (tested x) with
      | error f => rfl
      | ok text =>
        obtain ⟨a, log, hx, -⟩ := hj text
        change ((judge text).exec (d.overwrite place bytes) s).1 = ((judge text).exec d s).1
        rw [hx, hx]

end Rule

namespace Lint

variable {root : Path} {c : Conventions} {pathOnly : Bool} {file : Path}

/-- What is found on a file stays the same if another file gets another content, unless that is a
connection module or the file is a test for it. -/
theorem findingsOn_overwrite (hc : c.Consistent) (hf : Path.resolve d.workingDirectory file ≠ place)
    (hk : ¬ Scan.IsConnection d root c place)
    (ht : ∀ text, ¬ Rule.Tests (contextOf root c d file text) place) :
    findingsOn .builtin root c pathOnly (d.overwrite place bytes) file
      = findingsOn .builtin root c pathOnly d file := by
  have hcontent : content pathOnly (d.overwrite place bytes) file = content pathOnly d file := by
    unfold content
    rw [Disk.readText_overwrite hf]
  have hknown : (RunState.fresh root c).known (d.overwrite place bytes)
      = (RunState.fresh root c).known d := by
    change (findDatabases _ root c).1 = (findDatabases d root c).1
    rw [findDatabases_overwrite hk]
  unfold findingsOn
  rw [hcontent]
  cases content pathOnly d file with
  | error e => rfl
  | ok text =>
    change Rule.shares _ _ (contextOf root c d file text)
      (rulesFor .builtin root c pathOnly d file text) = _
    have hs : ∀ r ∈ rulesFor .builtin root c pathOnly d file text,
        r.share (d.overwrite place bytes) (.fresh root c) (contextOf root c d file text)
          = r.share d (.fresh root c) (contextOf root c d file text) := by
      intro r hr
      unfold Rule.share
      rw [Rule.verdict_overwrite hc (Registry.mem_select.mp hr).1 hknown rfl (ht text)]
    exact Rule.shares_congr hs

variable {directory parts : List String} {start finish : Data.Number}

theorem pairwise_rules (g : Registry) (root : Path) (c : Conventions) (pathOnly : Bool) (d : Disk)
    (file : Path) : (findingsOn g root c pathOnly d file).diagnostics.Pairwise
      fun a b => a.rule ≤ b.rule := by
  unfold findingsOn
  split
  · exact List.Pairwise.nil
  · exact Rule.pairwise_shares

/-- The diagnostics of a report that name a file are those that are found on it. -/
theorem filter_report (hd : d.WellFormed)
    (hf : ⟨.root, directory ++ parts⟩ ∈ projectFiles d directory) :
    ((report .builtin start finish (gathered .builtin ⟨.root, directory⟩ c pathOnly d
        (projectFiles d directory))).diagnostics.filter fun y => y.file = Path.render parts) =
      (findingsOn .builtin ⟨.root, directory⟩ c pathOnly d
        ⟨.root, directory ++ parts⟩).diagnostics := by
  have hg := Registry.named_builtin
  have halone := alone_of_links_nil hd.volume d.links_eq_nil hf
  have hshown : Rule.shownPath (contextOf ⟨.root, directory⟩ c d ⟨.root, directory ++ parts⟩ "")
      = Path.render parts := Disk.shownPath_contextOf hd (below_of_mem_projectFiles hf)
  have hfile : ∀ y ∈ (findingsOn .builtin ⟨.root, directory⟩ c pathOnly d
      ⟨.root, directory ++ parts⟩).diagnostics, y.file = Path.render parts :=
    fun y hy => (file_of_mem_findingsOn "" hy).trans hshown
  have hrules : ((findingsOn .builtin ⟨.root, directory⟩ c pathOnly d
      ⟨.root, directory ++ parts⟩).diagnostics.map (·.rule)).Nodup := nodup_findingsOn hg
  have hmem : ∀ y, y ∈ ((report .builtin start finish (gathered .builtin ⟨.root, directory⟩ c
        pathOnly d (projectFiles d directory))).diagnostics.filter
          fun y => y.file = Path.render parts) ↔
      y ∈ (findingsOn .builtin ⟨.root, directory⟩ c pathOnly d
        ⟨.root, directory ++ parts⟩).diagnostics := by
    intro y
    rw [List.mem_filter, decide_eq_true_iff]
    constructor
    · rintro ⟨hy, hyf⟩
      exact (mem_report_iff "" hd.volume hf halone (hyf.trans hshown.symm)).mp hy
    · intro hy
      exact ⟨mem_report_diagnostics.mpr ⟨_, hf, hy⟩, hfile y hy⟩
  have hnodup : ((report .builtin start finish (gathered .builtin ⟨.root, directory⟩ c pathOnly d
      (projectFiles d directory))).diagnostics.map fun y => (y.file, y.rule)).Nodup :=
    nodup_report_of_links_nil hg hd.volume d.links_eq_nil
  -- both lists are in the order of the rules, and no rule is there twice
  refine eq_of_perm (pairwise_report.filter _) ((pairwise_rules ..).imp_of_mem ?_)
    ((List.perm_ext_iff_of_nodup (hnodup.of_map.filter _) hrules.of_map).mpr hmem) ?_
  · intro a b ha hb hab
    rw [before_iff, if_pos ((hfile a ha).trans (hfile b hb).symm)]
    exact hab
  · intro a ha b hb _ hrule
    exact List.inj_on_of_nodup_map hrules ((hmem a).mp ha) ((hmem b).mp hb) hrule

end Lint

theorem Disk.wellFormed_overwrite (hd : d.WellFormed) : (d.overwrite place bytes).WellFormed where
  names := by
    intro e he
    obtain ⟨e', he', rfl⟩ := List.mem_map.mp he
    exact hd.names e' he'
  unique := by
    have hm : (d.overwrite place bytes).entries.map (·.1) = d.entries.map (·.1) := by
      simp [Disk.overwrite, Function.comp_def]
    rw [hm]
    exact hd.unique

variable {c : Conventions} {q : LintRequest} {start finish : Data.Number}

/-- What a run over a project reports on a file, if it ends with a report. -/
def LintRequest.reportOn (q : LintRequest) (start finish : Data.Number) (c : Conventions)
    (file : Path) (d : Disk) : Option Findings :=
  match (lint .builtin d q start finish).1 with
  | .error _ => none
  | .ok _ => some (Lint.findingsOn .builtin (d.absolute q.root) c q.pathOnly d file)

theorem reportOn_of_invalid {file : Path} (hv : q.isValid = false)
    (hc : Conventions.ofProject d (d.absolute q.root) q.config = .ok c) :
    q.reportOn start finish c file d = none := by
  unfold LintRequest.reportOn
  rw [lint_of_invalid hv hc]

theorem reportOn_of_stops {file : Path} (hv : q.isValid = true)
    (hc : Conventions.ofProject d (d.absolute q.root) q.config = .ok c) (hq : q.Stops d c) :
    q.reportOn start finish c file d = none := by
  unfold LintRequest.reportOn
  rw [lint_of_stops hv hc hq]

theorem reportOn_of_not_stops {file : Path} (hv : q.isValid = true)
    (hc : Conventions.ofProject d (d.absolute q.root) q.config = .ok c) (hq : ¬ q.Stops d c) :
    q.reportOn start finish c file d
      = some (Lint.findingsOn .builtin (d.absolute q.root) c q.pathOnly d file) := by
  unfold LintRequest.reportOn
  rw [lint_of_not_stops hv hc hq]

theorem paths_overwrite : q.paths (d.overwrite place bytes) = q.paths d := by
  unfold LintRequest.paths
  split
  · rfl
  · exact Lint.projectFiles_overwrite _

/-- A report has on each file what is found there. -/
theorem of_lint_project {file : Path} {parts : List String} {out : Report} (hd : d.WellFormed)
    (hc : Conventions.ofProject d (d.absolute q.root) q.config = .ok c) (hq : q.files = none)
    (hf : file ∈ q.paths d) (hp : file.parts = (d.absolute q.root).parts ++ parts)
    (hl : (lint .builtin d q start finish).1 = .ok out) :
    (out.diagnostics.filter fun y => y.file = Path.render parts)
        = (Lint.findingsOn .builtin (d.absolute q.root) c q.pathOnly d file).diagnostics ∧
      out.errors = (q.paths d).flatMap fun f =>
        (Lint.findingsOn .builtin (d.absolute q.root) c q.pathOnly d f).errors := by
  have hs : Registry.builtin.Steady d c := steady_builtin (Conventions.ofProject_consistent hc)
  obtain ⟨-, rfl⟩ := of_lint_ok hs hc hl
  have hpaths : q.paths d = Lint.projectFiles d (d.absolute q.root).parts := by
    simp [LintRequest.paths, hq]
  rw [hpaths] at hf ⊢
  obtain ⟨parts', -, -, rfl⟩ := Lint.mem_projectFiles.mp hf
  have hpp : parts' = parts := List.append_cancel_left hp
  subst hpp
  exact ⟨Lint.filter_report hd hf, rfl⟩

/-- What a run reports on a file does not change with the content of another file that has no
influence on it, unless just one of the runs stops. -/
theorem reportOn_overwrite_iff {file : Path} {parts : List String} (hd : d.WellFormed)
    (hc : Conventions.ofProject d (d.absolute q.root) q.config = .ok c) (hq : q.files = none)
    (hf : file ∈ q.paths d) (hp : file.parts = (d.absolute q.root).parts ++ parts)
    (hne : file.parts ≠ place)
    (hsource : ∀ p, Conventions.source? d (d.absolute q.root) q.config = some p →
      Path.resolve d.workingDirectory p ≠ place)
    (hconnection : ¬ Scan.IsConnection d (d.absolute q.root) c place)
    (htest : ∀ text, ¬ Rule.Tests (Lint.contextOf (d.absolute q.root) c d file text) place) :
    (∀ e ∈ [d, d.overwrite place bytes], ∀ out, (lint .builtin e q start finish).1 = .ok out →
      (out.diagnostics.filter fun y => y.file = Path.render parts)
          = (Lint.findingsOn .builtin (d.absolute q.root) c q.pathOnly e file).diagnostics ∧
        out.errors = (q.paths d).flatMap fun f =>
          (Lint.findingsOn .builtin (d.absolute q.root) c q.pathOnly e f).errors) ∧
    (q.reportOn start finish c file (d.overwrite place bytes) = q.reportOn start finish c file d ↔
      (q.isValid = true → (q.Stops (d.overwrite place bytes) c ↔ q.Stops d c))) := by
  have hc' : Conventions.ofProject (d.overwrite place bytes)
      ((d.overwrite place bytes).absolute q.root) q.config = .ok c :=
    (Conventions.ofProject_overwrite hsource).trans hc
  have hresolve : Path.resolve d.workingDirectory file ≠ place := by
    simp only [LintRequest.paths, hq] at hf
    rw [Disk.resolve_of_mem_projectFiles hd hf]
    exact hne
  have hfound : Lint.findingsOn .builtin (d.absolute q.root) c q.pathOnly
      (d.overwrite place bytes) file
      = Lint.findingsOn .builtin (d.absolute q.root) c q.pathOnly d file :=
    Lint.findingsOn_overwrite (Conventions.ofProject_consistent hc) hresolve hconnection htest
  constructor
  · intro e he out hl
    simp only [List.mem_cons, List.not_mem_nil, or_false] at he
    rcases he with rfl | rfl
    · exact of_lint_project hd hc hq hf hp hl
    · rw [← paths_overwrite] at hf ⊢
      exact of_lint_project (Disk.wellFormed_overwrite hd) hc' hq hf hp hl
  · cases hv : q.isValid with
    | false => simp [reportOn_of_invalid hv hc, reportOn_of_invalid hv hc']
    | true =>
      by_cases hs : q.Stops d c <;> by_cases hs' : q.Stops (d.overwrite place bytes) c
      · simp [reportOn_of_stops hv hc hs, reportOn_of_stops hv hc' hs', hs, hs']
      · simp [reportOn_of_stops hv hc hs, reportOn_of_not_stops hv hc' hs', hs, hs']
      · simp [reportOn_of_not_stops hv hc hs, reportOn_of_stops hv hc' hs', hs, hs']
      · rw [reportOn_of_not_stops hv hc hs, reportOn_of_not_stops hv hc' hs']
        simp only [hs, hs', iff_true, Option.some.injEq, forall_const]
        exact hfound

/-- A project with a script, a function that is no text and a test of it. -/
def scriptBeside : Disk where
  entries := (["p", "a.js"], .file []) :: brokenFunction.entries

theorem visited_scriptBeside :
    ⟨.root, ["p"] ++ ["a.js"]⟩ ∈ Lint.projectFiles scriptBeside ["p"] :=
  Lint.mem_projectFiles.mpr
    ⟨_, Disk.mem_filesBelow.mpr ⟨by simp, [], List.mem_cons_self ..⟩, by decide, rfl⟩

/-- There is something to say of the script. -/
theorem exists_finding_scriptBeside : ∃ y ∈ (Lint.findingsOn .builtin ⟨.root, ["p"]⟩ {} false
    scriptBeside ⟨.root, ["p", "a.js"]⟩).diagnostics, y.rule = "general-no-js-files" := by
  have ht : Lint.content false scriptBeside ⟨.root, ["p", "a.js"]⟩ = .ok "" := by decide +kernel
  have hm : Rule.noJavaScript ∈ Registry.builtin.entries := by simp [Registry.builtin]
  have hv : Rule.noJavaScript.verdict scriptBeside (.fresh ⟨.root, ["p"]⟩ {})
      (Lint.contextOf ⟨.root, ["p"]⟩ {} scriptBeside ⟨.root, ["p", "a.js"]⟩ "") = .ok (some _) := rfl
  exact ⟨_, Lint.mem_findingsOn_diagnostics.mpr
    ⟨"", ht, _, Lint.mem_rulesFor hm (by simp) (by simp [hv]), hv⟩, rfl⟩

/-- Another content of the function leaves what is reported on the script. -/
theorem reportOn_scriptBeside : ∃ found y,
    LintRequest.reportOn { root := ⟨.root, ["p"]⟩ } (.int 0) (.int 0) {} ⟨.root, ["p", "a.js"]⟩
        scriptBeside = some found ∧
      y ∈ found.diagnostics ∧ y.rule = "general-no-js-files" ∧
      LintRequest.reportOn { root := ⟨.root, ["p"]⟩ } (.int 0) (.int 0) {} ⟨.root, ["p", "a.js"]⟩
        (scriptBeside.overwrite ["p", "src", "function", "fx.a.ts"] [0x61]) = some found := by
  have hd : scriptBeside.WellFormed := by decide
  have hc : Conventions.ofProject scriptBeside (scriptBeside.absolute ⟨.root, ["p"]⟩) none
      = .ok {} := rfl
  have hsource : ∀ p, Conventions.source? scriptBeside (scriptBeside.absolute ⟨.root, ["p"]⟩)
      none = some p →
      Path.resolve scriptBeside.workingDirectory p ≠ ["p", "src", "function", "fx.a.ts"] := by
    intro p hp
    have hnone : Conventions.source? scriptBeside (scriptBeside.absolute ⟨.root, ["p"]⟩) none
        = none := rfl
    rw [hnone] at hp
    cases hp
  have hm : (Scan.connectionModules scriptBeside (scriptBeside.absolute ⟨.root, ["p"]⟩)
      {}).toOption = some [] := by
    decide +kernel
  have hconnection : ¬ Scan.IsConnection scriptBeside (scriptBeside.absolute ⟨.root, ["p"]⟩) {}
      ["p", "src", "function", "fx.a.ts"] := by
    rintro ⟨ps, hps, p, hp, -⟩
    rw [hps] at hm
    cases hm
    cases hp
  have htest : ∀ text, ¬ Rule.Tests (Lint.contextOf (scriptBeside.absolute ⟨.root, ["p"]⟩) {}
      scriptBeside ⟨.root, ["p", "a.js"]⟩ text) ["p", "src", "function", "fx.a.ts"] := by
    rintro text ⟨-, ht, -⟩
    have hfalse : isTestFile "/p/a.js" ".test" = false := by decide +kernel
    exact Bool.false_ne_true (hfalse.symm.trans ht)
  have hb : ∀ e ∈ [scriptBeside, scriptBeside.overwrite ["p", "src", "function", "fx.a.ts"] [0x61]],
      ¬ LintRequest.Stops { root := ⟨.root, ["p"]⟩ } e {} :=
    fun e _ h => Scan.not_blocked_standard _ _ h.2.1
  have hne : ["p", "a.js"] ≠ ["p", "src", "function", "fx.a.ts"] := by decide
  obtain ⟨-, hiff⟩ := reportOn_overwrite_iff (q := { root := ⟨.root, ["p"]⟩ }) hd hc rfl
    visited_scriptBeside rfl hne hsource hconnection htest
  have hreport : LintRequest.reportOn { root := ⟨.root, ["p"]⟩ } (.int 0) (.int 0) {}
      ⟨.root, ["p", "a.js"]⟩ scriptBeside = some _ :=
    reportOn_of_not_stops (by decide) hc (hb _ (by simp))
  obtain ⟨y, hy, hrule⟩ := exists_finding_scriptBeside
  refine ⟨_, y, hreport, hy, hrule, (hiff.mpr fun _ => ?_).trans hreport⟩
  exact iff_of_false (hb _ (by simp)) (hb _ (by simp))

/-- The project whose marker starts at the root, with nothing in its function. -/
def emptiedFunction : Disk := rootedMarker.overwrite ["p", "src", "function", "fx.a.ts"] []

/-- Once its function is empty, no file of the project asks for the databases. -/
theorem not_stops_emptiedFunction :
    ¬ LintRequest.Stops { root := ⟨.root, ["p"]⟩ } emptiedFunction c := by
  rintro ⟨-, -, file, hf, text, ht, -, -, hv⟩
  have hempty : ∀ x ∈ emptiedFunction.entries, Lint.isVisited (x.1.drop 1) = true →
      x.2 ≠ .directory → emptiedFunction.readText ⟨.root, x.1⟩ = .ok "" := by
    decide +kernel
  obtain ⟨parts, hp, hvisited, rfl⟩ := Lint.mem_projectFiles.mp hf
  obtain ⟨-, bytes, hm⟩ := Disk.mem_filesBelow.mp hp
  have htext : text = "" := Except.ok.inj (ht.symm.trans (hempty _ hm hvisited nofun))
  subst htext
  cases hv

/-- The script of the project is in no area of functions, and there is something to say of it. -/
theorem script_rootedMarker (hc : Conventions.ofProject rootedMarker ⟨.root, ["p"]⟩ none = .ok c) :
    (∀ text, (Lint.contextOf ⟨.root, ["p"]⟩ c rootedMarker ⟨.root, ["p", "a.js"]⟩ text).area?
      ≠ some .function) ∧
    ∃ message, Registry.builtin.invoke emptiedFunction Rule.noJavaScript.name
      (Lint.contextOf ⟨.root, ["p"]⟩ c emptiedFunction ⟨.root, ["p", "a.js"]⟩ "")
        = .ok (some message) := by
  have h : (Conventions.ofProject rootedMarker ⟨.root, ["p"]⟩ none).toOption.any fun c =>
      (Lint.contextOf ⟨.root, ["p"]⟩ c rootedMarker ⟨.root, ["p", "a.js"]⟩ "").area?
        != some .function &&
      (Registry.builtin.invoke emptiedFunction Rule.noJavaScript.name (Lint.contextOf
        ⟨.root, ["p"]⟩ c emptiedFunction ⟨.root, ["p", "a.js"]⟩ "")).toOption.any (·.isSome) := by
    decide +kernel
  obtain ⟨c', hc', h⟩ := exists_ok_of_any h
  cases hc.symm.trans hc'
  rw [Bool.and_eq_true] at h
  obtain ⟨o, ho, hsome⟩ := exists_ok_of_any h.2
  obtain ⟨message, rfl⟩ := Option.isSome_iff_exists.mp hsome
  exact ⟨fun text => bne_iff_ne.mp h.1, message, ho⟩

/-- What is said of the script by itself is in the report. -/
theorem lint_emptiedFunction {message : String}
    (hc : Conventions.ofProject emptiedFunction ⟨.root, ["p"]⟩ none = .ok c)
    (hi : Registry.builtin.invoke emptiedFunction Rule.noJavaScript.name
      (Lint.contextOf ⟨.root, ["p"]⟩ c emptiedFunction ⟨.root, ["p", "a.js"]⟩ "")
        = .ok (some message)) :
    ∃ out, (lint .builtin emptiedFunction { root := ⟨.root, ["p"]⟩ } (.int 0) (.int 0)).1 = .ok out ∧
      ⟨Rule.noJavaScript.name, message, "a.js"⟩ ∈ out.diagnostics := by
  have hd : emptiedFunction.WellFormed := by decide
  have hp : ["a.js"] ∈ emptiedFunction.filesBelow ["p"] :=
    Disk.mem_filesBelow.mpr ⟨by simp, [], by decide⟩
  have hf : ⟨.root, ["p"] ++ ["a.js"]⟩ ∈ Lint.projectFiles emptiedFunction ["p"] :=
    Lint.mem_projectFiles.mpr ⟨_, hp, by decide, rfl⟩
  have ht : Lint.content false emptiedFunction ⟨.root, ["p"] ++ ["a.js"]⟩ = .ok "" := by
    decide +kernel
  have hr : Rule.noJavaScript ∈ Registry.builtin.entries := by simp [Registry.builtin]
  have hfound :=
    (Lint.mem_findingsOn_iff_invoke Registry.named_builtin hr (fun _ => rfl) ht).mpr hi
  rw [Disk.shownPath_contextOf hd hp] at hfound
  exact ⟨_, lint_of_not_stops (by decide) hc not_stops_emptiedFunction,
    Lint.mem_report_diagnostics.mpr ⟨_, hf, hfound⟩⟩

/-- A script is reported on or not, as the content of a function is. -/
theorem reportOn_rootedMarker : ∃ c,
    Conventions.ofProject rootedMarker ⟨.root, ["p"]⟩ none = .ok c ∧
      (∀ p, Conventions.source? rootedMarker ⟨.root, ["p"]⟩ none = some p →
        Path.resolve rootedMarker.workingDirectory p ≠ ["p", "src", "function", "fx.a.ts"]) ∧
      ¬ Scan.IsConnection rootedMarker ⟨.root, ["p"]⟩ c ["p", "src", "function", "fx.a.ts"] ∧
      (∀ text, ¬ Rule.Tests (Lint.contextOf ⟨.root, ["p"]⟩ c rootedMarker
        ⟨.root, ["p", "a.js"]⟩ text) ["p", "src", "function", "fx.a.ts"]) ∧
      (lint .builtin rootedMarker { root := ⟨.root, ["p"]⟩ } (.int 0) (.int 0)).1
        = .error (.failure (.scan (.pattern .absolute))) ∧
      ∃ out, (lint .builtin emptiedFunction { root := ⟨.root, ["p"]⟩ } (.int 0) (.int 0)).1
          = .ok out ∧
        ∃ message, ⟨"general-no-js-files", message, "a.js"⟩ ∈ out.diagnostics := by
  obtain ⟨c, hc, hq⟩ := stops_rootedMarker
  obtain ⟨harea, message, hi⟩ := script_rootedMarker hc
  have hs : Conventions.source? rootedMarker ⟨.root, ["p"]⟩ none
      = some ⟨.root, ["p", "bakelint.yml"]⟩ := by
    decide +kernel
  have hsource : ∀ p, Conventions.source? rootedMarker ⟨.root, ["p"]⟩ none = some p →
      Path.resolve rootedMarker.workingDirectory p ≠ ["p", "src", "function", "fx.a.ts"] := by
    intro p hp
    rw [hs] at hp
    cases hp
    decide
  have hc' : Conventions.ofProject emptiedFunction ⟨.root, ["p"]⟩ none = .ok c :=
    (Conventions.ofProject_overwrite hsource).trans hc
  obtain ⟨out, hl, hm⟩ := lint_emptiedFunction hc' hi
  refine ⟨c, hc, hsource, ?_, fun text ht => harea text ht.1, lint_of_stops (by decide) hc hq, out,
    hl, message, hm⟩
  rintro ⟨ps, hps, -⟩
  rw [(Scan.connectionModules_eq_absolute_iff _ _ _).mpr hq.2.1.2] at hps
  cases hps

end ConventionLint
