import ConventionLint.Proofs.Contract

/-! A run over a project ends with a report of all that was found and of all that failed, but for one
kind of marker. -/
namespace ConventionLint

variable {d : Volume} {c : Conventions}

/-- A run on paths that are valid ends with a report exactly if it does not stop at a scan. The report
has what every rule finds on every file, and an entry and a record in the log for all that failed. -/
theorem lint_reports_unless_stopped (q : LintRequest) (start finish : Data.Number)
    (hc : Conventions.ofProject d (d.absolute q.root) q.config = .ok c) :
    (q.isValid = false → (lint .builtin d q start finish).1 = .error (.path .invalidPath)) ∧
    (q.isValid = true → q.Stops d c →
      (lint .builtin d q start finish).1 = .error (.failure (.scan (.pattern .absolute)))) ∧
    (q.isValid = true → ¬ q.Stops d c → ∃ out, (lint .builtin d q start finish).1 = .ok out ∧ ∀ file ∈ q.paths d,
      (∀ e, Lint.content q.pathOnly d file = .error e →
        Lint.unreadable file e ∈ out.errors ∧
          Lint.unreadableWarning file e ∈ (lint .builtin d q start finish).2) ∧
      ∀ text, Lint.content q.pathOnly d file = .ok text → ∀ rule ∈ Registry.builtin.entries,
        (q.pathOnly = true → rule.needsContent = false) →
        (∀ e, Registry.builtin.invoke d rule.name
            (Lint.contextOf (d.absolute q.root) c d file text) = .error (.failure e) →
          rule.entry (Lint.contextOf (d.absolute q.root) c d file text) e ∈ out.errors ∧
            rule.warning (Lint.contextOf (d.absolute q.root) c d file text) e ∈
              (lint .builtin d q start finish).2) ∧
        ∀ message, Registry.builtin.invoke d rule.name
            (Lint.contextOf (d.absolute q.root) c d file text) = .ok (some message) →
          ⟨rule.name, message, Rule.shownPath (Lint.contextOf (d.absolute q.root) c d file text)⟩ ∈
            out.diagnostics) := by
  have hs : Registry.builtin.Steady d c := steady_builtin (Conventions.ofProject_consistent hc)
  have hg := Registry.named_builtin
  refine ⟨fun hv => by rw [lint_of_invalid hv hc], fun hv hq => lint_of_stops hv hc hq,
    fun hv hq => ?_⟩
  have hl : (lint .builtin d q start finish).1 = .ok _ := lint_of_not_stops hv hc hq
  have hnone := (of_lint_ok hs hc hl).1
  refine ⟨_, hl, fun file hf => ⟨fun e he => ⟨?_, ?_⟩, fun text ht rule hr hp =>
    ⟨fun e hi => ?_, fun message hi => ?_⟩⟩⟩
  · refine List.mem_flatMap.mpr ⟨file, hf, ?_⟩
    simp [Lint.findingsOn, he]
  · refine mem_log_lint hv hc (Lint.mem_log_visitAll hs ?_ hnone hf rfl)
    exact fun s _ => Lint.mem_log_unreadable he
  · have hfails : rule.verdict d (.fresh (d.absolute q.root) c)
        (Lint.contextOf (d.absolute q.root) c d file text) = .error e :=
      (Registry.invoke_eq_failure_iff hg hr).mp hi
    obtain ⟨hentry, -⟩ := Lint.findingsOn_of_failure hg hr hp ht hfails
    refine ⟨List.mem_flatMap.mpr ⟨file, hf, hentry⟩, ?_⟩
    refine mem_log_lint hv hc (Lint.mem_log_visitAll hs ?_ hnone hf rfl)
    intro s hks
    have hm : rule ∈ Lint.rulesFor .builtin (d.absolute q.root) c q.pathOnly d file text :=
      Lint.mem_rulesFor hr hp (by simp [hfails])
    exact Lint.mem_log_warning hs ht hm hfails (hnone file hf) hks
  · exact Lint.mem_report_diagnostics.mpr
      ⟨file, hf, (Lint.mem_findingsOn_iff_invoke hg hr hp ht).mpr hi⟩

theorem lint_reports_brokenFunction : ∃ out,
    (lint .builtin brokenFunction { root := ⟨.root, ["p"]⟩ } (.int 0) (.int 0)).1 = .ok out ∧
      Lint.unreadable ⟨.root, ["p", "src", "function", "fx.a.ts"]⟩
        (.decode ⟨0, 0, 0xff, .start⟩) ∈ out.errors ∧
      Rule.functionTestImportsTestingDb.warning
          (Lint.contextOf ⟨.root, ["p"]⟩ {} brokenFunction
            ⟨.root, ["p", "src", "function", "fx.a.test.ts"]⟩ "")
          (.read (.decode ⟨0, 0, 0xff, .start⟩)) ∈
        (lint .builtin brokenFunction { root := ⟨.root, ["p"]⟩ } (.int 0) (.int 0)).2 := by
  have hc : Conventions.ofProject brokenFunction (brokenFunction.absolute ⟨.root, ["p"]⟩) none
      = .ok {} := rfl
  have hb : ¬ Scan.Blocked brokenFunction (brokenFunction.absolute ⟨.root, ["p"]⟩) {} := by
    decide +kernel
  have ht : brokenFunction.readText ⟨.root, ["p", "src", "function", "fx.a.test.ts"]⟩ = .ok "" := by
    decide +kernel
  have hu : brokenFunction.readText ⟨.root, ["p", "src", "function", "fx.a.ts"]⟩
      = .error (.decode ⟨0, 0, 0xff, .start⟩) := by
    decide +kernel
  have hr : Rule.functionTestImportsTestingDb ∈ Registry.builtin.entries := by
    simp [Registry.builtin]
  obtain ⟨out, hl, h⟩ := (lint_reports_unless_stopped { root := ⟨.root, ["p"]⟩ } (.int 0) (.int 0)
    hc).2.2 (by decide) fun hq => hb hq.2.1
  obtain ⟨hfunction, -⟩ := h _ (visited_brokenFunction "fx.a.ts" (by simp))
  obtain ⟨-, htest⟩ := h _ (visited_brokenFunction "fx.a.test.ts" (by simp))
  exact ⟨out, hl, (hfunction _ hu).1, ((htest "" ht _ hr (by simp)).1 _ rfl).2⟩

/-- A project with a marker that starts at the root, a function whose portal has a database and a
script. -/
def rootedMarker : Disk where
  entries :=
    [(["p"], .directory), (["p", "src"], .directory), (["p", "src", "database"], .directory),
     (["p", "src", "function"], .directory),
     (["p", "bakelint.yml"],
       .file ("connection_path_marker: /conn.\n".toList.map fun c => .ofNat c.toNat)),
     (["p", "src", "function", "fx.a.ts"],
       .file ("export type TPortal = \x7b db: typeof x \x7d\n".toList.map fun c => .ofNat c.toNat)),
     (["p", "a.js"], .file [])]

/-- The conventions of the project are accepted, and its run stops. -/
theorem stops_rootedMarker : ∃ c,
    Conventions.ofProject rootedMarker ⟨.root, ["p"]⟩ none = .ok c ∧
      LintRequest.Stops { root := ⟨.root, ["p"]⟩ } rootedMarker c := by
  have h : (Conventions.ofProject rootedMarker ⟨.root, ["p"]⟩ none).toOption.any fun c =>
      decide (Scan.Blocked rootedMarker ⟨.root, ["p"]⟩ c) &&
      ((rootedMarker.readText ⟨.root, ["p", "src", "function", "fx.a.ts"]⟩).toOption.any fun text =>
        let x := Lint.contextOf ⟨.root, ["p"]⟩ c rootedMarker
          ⟨.root, ["p", "src", "function", "fx.a.ts"]⟩ text
        x.area? = some .function && !x.isTest && (Rule.portalVariable? c text).isSome) := by
    decide +kernel
  have hf : ⟨.root, ["p"] ++ ["src", "function", "fx.a.ts"]⟩ ∈
      Lint.projectFiles rootedMarker ["p"] := by
    have hp : ["src", "function", "fx.a.ts"] ∈ rootedMarker.filesBelow ["p"] :=
      Disk.mem_filesBelow.mpr ⟨by simp, _, List.mem_of_getElem? (i := 5) rfl⟩
    exact Lint.mem_projectFiles.mpr ⟨_, hp, by decide, rfl⟩
  obtain ⟨c, hc, h⟩ := exists_ok_of_any h
  rw [Bool.and_eq_true, decide_eq_true_iff] at h
  obtain ⟨text, ht, hx⟩ := exists_ok_of_any h.2
  simp only [Bool.and_eq_true, decide_eq_true_iff, Bool.not_eq_true'] at hx
  exact ⟨c, hc, rfl, h.1, _, hf, text, ht, hx.1.1, hx.1.2, hx.2⟩

/-- A marker that starts at the root ends the run of a project. -/
theorem lint_rootedMarker :
    (∃ c, Conventions.ofProject rootedMarker ⟨.root, ["p"]⟩ none = .ok c) ∧
      (lint .builtin rootedMarker { root := ⟨.root, ["p"]⟩ } (.int 0) (.int 0)).1
        = .error (.failure (.scan (.pattern .absolute))) := by
  obtain ⟨c, hc, hq⟩ := stops_rootedMarker
  exact ⟨⟨c, hc⟩, lint_of_stops (by decide) hc hq⟩

end ConventionLint
