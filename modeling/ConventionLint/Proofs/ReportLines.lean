import ConventionLint.Proofs.Coverage
import ConventionLint.Proofs.Messages
import ConventionLint.Report

/-! A report of one line for each diagnostic. It is that for all rules but two, and for these unless
they quote something of several lines. -/
namespace ConventionLint

open Text

variable {d : Disk} {c : Conventions}

/-- The parts that lines are split into are those that were joined exactly if each is on one line. -/
theorem Report.splitAt_toLines_iff {r : Report} (hr : r.diagnostics ≠ []) :
    splitAt '\n' r.toLines.toList
        = r.diagnostics.map (fun y => (y.rule ++ ":" ++ y.file ++ ":" ++ y.error).toList) ↔
      ∀ y ∈ r.diagnostics, IsLine (y.rule ++ ":" ++ y.file ++ ":" ++ y.error) := by
  have hlines : r.toLines.toList = ['\n'].intercalate
      (r.diagnostics.map fun y => (y.rule ++ ":" ++ y.file ++ ":" ++ y.error).toList) := by
    rw [Report.toLines, String.toList_intercalate, List.map_map]
    rfl
  rw [hlines]
  constructor
  · intro h y hy
    have hmem := List.mem_map_of_mem
      (f := fun y : Diagnostic => (y.rule ++ ":" ++ y.file ++ ":" ++ y.error).toList) hy
    rw [← h] at hmem
    exact not_mem_of_mem_splitAt hmem
  · intro h
    refine splitAt_intercalate (by simpa using hr) fun p hp => ?_
    obtain ⟨y, hy, rfl⟩ := List.mem_map.mp hp
    exact h y hy

theorem isLine_name {r : Rule} (hr : r ∈ Registry.builtin.entries) : IsLine r.name := by
  have hall : ∀ r ∈ Registry.builtin.entries, IsLine r.name := by decide +kernel
  exact hall r hr

theorem isLine_render {parts : List String} (h : ∀ s ∈ parts, IsLine s) :
    IsLine (Path.render parts) := by
  unfold Path.render
  split
  · decide
  · exact isLine_intercalate (by decide) h

/-- The databases of a project have names on one line. -/
theorem isLine_known {root : Path} {k : Catalog} (h : (RunState.fresh root c).known d = .ok k)
    {name : String} (hn : name ∈ k.names) : IsLine name := by
  rw [Catalog.names, List.mem_mergeSort] at hn
  obtain ⟨v, hentry, rfl⟩ := List.mem_map.mp hn
  obtain ⟨-, modules, -, p, -, path, -, hv⟩ := exists_of_mem_findDatabases h hentry
  unfold Scan.variablesOf at hv
  split at hv
  · cases hv
  · split at hv
    · cases hv
    · rename_i m hm
      obtain ⟨name, hname, rfl⟩ := List.mem_map.mp hv
      exact Module.isLine_exportedVariables (Module.isTidy_of_parse hm) (List.mem_filter.mp hname).1

namespace Rule

variable {s : RunState} {x : Context} {r : Rule}

theorem isLine_error_of_verdict {y : Diagnostic} (h : Lined d (s.known d) (r.check x))
    (hv : r.verdict d s x = .ok (some y)) : IsLine y.error := by
  rw [verdict_eq, exec_outcome_fst] at hv
  split at hv
  · rcases hx : (r.check x).exec d s with ⟨e | o, t⟩ <;> rw [hx] at hv <;> dsimp only at hv
    · split at hv <;> cases hv
    · obtain ⟨message, hm, rfl⟩ := Option.map_eq_some_iff.mp (Except.ok.inj hv)
      exact (h s rfl o t hx).2 message hm
  · cases hv

/-- A rule whose check gives a broken message has a broken diagnostic. -/
theorem exists_verdict_of_not_lined {o : Outcome} (hg : r.governs x.toPlace = true)
    (ho : ((r.check x).exec d s).1 = .ok o) (hn : ¬ o.Lined) :
    ∃ y, r.verdict d s x = .ok (some y) ∧ ¬ IsLine y.error := by
  obtain ⟨message, hm⟩ := not_forall.mp hn
  obtain ⟨hm, hn⟩ := Classical.not_imp.mp hm
  refine ⟨⟨r.name, message, shownPath x⟩, ?_, hn⟩
  rw [verdict_eq, exec_outcome_fst, if_pos hg, ho]
  simp [Except.map, diagnostic?, hm, shownPath]

end Rule

namespace Lint

variable {directory parts : List String} {text : String}

theorem lined_contextOf (hd : d.WellFormed) (hc : c.Lined) (hp : parts ∈ d.filesBelow directory)
    (hn : ∀ s ∈ parts, IsLine s) (text : String) :
    (contextOf ⟨.root, directory⟩ c d ⟨.root, directory ++ parts⟩ text).toPlace.Lined where
  conventions := hc
  path := by
    rw [Disk.relativePath?_contextOf hd hp]
    rintro _ ⟨⟩
    exact isLine_render hn
  fileName := by
    have hne : parts ≠ [] := (Disk.mem_filesBelow.mp hp).1
    rw [Place.fileName, absolutePath_contextOf hd hp, Path.name, getLastD_append hne]
    cases hl : parts.getLast? with
    | none => exact absurd (List.getLast?_eq_none_iff.mp hl) hne
    | some s =>
      rw [List.getLastD_eq_getLast?, hl]
      exact hn s (List.mem_of_getLast? hl)

end Lint

/-- Whether some rule for a file reports it on more than one line. -/
def Context.Breaks (x : Context) : Prop :=
  Rule.functionDbImportsTypeOnly.governs x.toPlace = true ∧ x.BreaksPath ∨
    Rule.testDescribeWrapper.governs x.toPlace = true ∧ x.LacksWrapper

/-- The rules with messages that may be broken. -/
def quotingRules : List String := ["function-db-imports-type-only", "general-test-describe-wrapper"]

namespace Lint

variable {directory parts : List String} {text : String} {pathOnly : Bool} {y : Diagnostic}

/-- What stands before the message is on one line. -/
theorem isLine_line_iff (hd : d.WellFormed) (hp : parts ∈ d.filesBelow directory)
    (hn : ∀ s ∈ parts, IsLine s) (hy : y ∈ (findingsOn .builtin ⟨.root, directory⟩ c pathOnly d
      ⟨.root, directory ++ parts⟩).diagnostics) :
    IsLine (y.rule ++ ":" ++ y.file ++ ":" ++ y.error) ↔ IsLine y.error := by
  have hfile : IsLine y.file := by
    rw [file_of_mem_findingsOn "" hy, Disk.shownPath_contextOf hd hp]
    exact isLine_render hn
  obtain ⟨text, -, r, hr, hv⟩ := mem_findingsOn_diagnostics.mp hy
  have hrule : IsLine y.rule := by
    rw [Rule.rule_of_verdict hv]
    exact isLine_name (Registry.mem_select.mp hr).1
  have hcolon : IsLine ":" := by decide
  simp only [isLine_append, hrule, hfile, hcolon, true_and]

theorem isLine_error_of_mem (hd : d.WellFormed) (hc : c.Lined) (hp : parts ∈ d.filesBelow directory)
    (hn : ∀ s ∈ parts, IsLine s) (hy : y ∈ (findingsOn .builtin ⟨.root, directory⟩ c pathOnly d
      ⟨.root, directory ++ parts⟩).diagnostics)
    (hb : y.rule ∈ quotingRules → pathOnly = false → ∀ text,
      d.readText ⟨.root, directory ++ parts⟩ = .ok text →
        ¬ (contextOf ⟨.root, directory⟩ c d ⟨.root, directory ++ parts⟩ text).Breaks) :
    IsLine y.error := by
  obtain ⟨text, ht, r, hr, hv⟩ := mem_findingsOn_diagnostics.mp hy
  obtain ⟨hr, hg, hpath⟩ := Registry.mem_select.mp hr
  have hquoting : r.name ∈ quotingRules → r.needsContent = true →
      ¬ (contextOf ⟨.root, directory⟩ c d ⟨.root, directory ++ parts⟩ text).Breaks := by
    intro hname hcontent
    cases pathOnly with
    | true =>
      -- neither of the two rules is selected by the path alone
      rw [hpath rfl] at hcontent
      cases hcontent
    | false => exact hb (Rule.rule_of_verdict hv ▸ hname) rfl text ht
  refine Rule.isLine_error_of_verdict ?_ hv
  refine Rule.lined_check (lined_contextOf hd hc hp hn text) (fun k hk name => isLine_known hk) hr ?_ ?_
  · rintro rfl hbreaks
    exact hquoting (by decide) rfl (Or.inl ⟨hg, hbreaks⟩)
  · rintro rfl hlacks
    exact hquoting (by decide) rfl (Or.inr ⟨hg, hlacks⟩)

theorem exists_mem_of_breaks (hd : d.WellFormed) (hc : c.Lined) (hp : parts ∈ d.filesBelow directory)
    (hn : ∀ s ∈ parts, IsLine s) (ht : d.readText ⟨.root, directory ++ parts⟩ = .ok text)
    (hb : (contextOf ⟨.root, directory⟩ c d ⟨.root, directory ++ parts⟩ text).Breaks) :
    ∃ y ∈ (findingsOn .builtin ⟨.root, directory⟩ c false d
      ⟨.root, directory ++ parts⟩).diagnostics, ¬ IsLine y.error := by
  have hrule : ∃ r ∈ Registry.builtin.entries,
      ∃ y, r.verdict d (.fresh ⟨.root, directory⟩ c)
        (contextOf ⟨.root, directory⟩ c d ⟨.root, directory ++ parts⟩ text) = .ok (some y) ∧
          ¬ IsLine y.error := by
    rcases hb with ⟨hg, hbreaks⟩ | ⟨hg, hsource, hcalls⟩
    · obtain ⟨o, ho, hl⟩ := Rule.exec_functionDbImportsTypeOnly (lined_contextOf hd hc hp hn text)
        hbreaks (.fresh ⟨.root, directory⟩ c)
      exact ⟨_, by simp [Registry.builtin], Rule.exists_verdict_of_not_lined hg ho hl⟩
    · obtain ⟨o, ho, hcases⟩ := Rule.exec_testDescribeWrapper
        (contextOf ⟨.root, directory⟩ c d ⟨.root, directory ++ parts⟩ text) d
        (.fresh ⟨.root, directory⟩ c)
      rw [if_pos hsource] at hcases
      refine ⟨_, by simp [Registry.builtin], Rule.exists_verdict_of_not_lined hg ho ?_⟩
      rw [hcases, Rule.lined_judgeCalls_iff]
      rintro ⟨hnone, hsome⟩
      exact hcalls.elim (fun h => h hnone) hsome
  obtain ⟨r, hr, y, hv, hy⟩ := hrule
  -- a rule with a verdict is selected for the file, so its diagnostic is among the findings
  refine ⟨y, mem_findingsOn_diagnostics.mpr ⟨text, ht, r, mem_rulesFor hr (by simp) ?_, hv⟩, hy⟩
  simp [hv]

end Lint

/-- A run over a whole project is reported with one line for each diagnostic exactly if no file that
was read makes a rule quote something of several lines. The diagnostics of all rules but two are on
one line in any case. -/
theorem toLines_lint_iff {q : LintRequest} {start finish : Data.Number} {out : Report}
    (hd : d.WellFormed) (hq : q.files = none)
    (hn : ∀ parts ∈ d.filesBelow (d.absolute q.root).parts, ∀ s ∈ parts, IsLine s)
    (hc : Conventions.ofProject d (d.absolute q.root) q.config = .ok c) (hl : c.Lined)
    (hr : (lint .builtin d q start finish).1 = .ok out) (hne : out.diagnostics ≠ []) :
    (splitAt '\n' out.toLines.toList
        = out.diagnostics.map (fun y => (y.rule ++ ":" ++ y.file ++ ":" ++ y.error).toList) ↔
      (q.pathOnly = false → ∀ file ∈ q.paths d, ∀ text, d.readText file = .ok text →
        ¬ (Lint.contextOf (d.absolute q.root) c d file text).Breaks)) ∧
    ∀ y ∈ out.diagnostics,
      y.rule ∉ ["function-db-imports-type-only", "general-test-describe-wrapper"] →
        IsLine (y.rule ++ ":" ++ y.file ++ ":" ++ y.error) := by
  have hf : q.paths d = Lint.projectFiles d (d.absolute q.root).parts := by
    unfold LintRequest.paths
    rw [hq]
  obtain ⟨-, rfl⟩ := of_lint_ok (steady_builtin (Conventions.ofProject_consistent hc)) hc hr
  rw [hf] at hne ⊢
  have hmem : ∀ y ∈ (Lint.report .builtin start finish (Lint.gathered .builtin (d.absolute q.root) c
      q.pathOnly d (Lint.projectFiles d (d.absolute q.root).parts))).diagnostics,
      ∃ parts ∈ d.filesBelow (d.absolute q.root).parts,
        ⟨.root, (d.absolute q.root).parts ++ parts⟩
            ∈ Lint.projectFiles d (d.absolute q.root).parts ∧
          y ∈ (Lint.findingsOn .builtin (d.absolute q.root) c q.pathOnly d
            ⟨.root, (d.absolute q.root).parts ++ parts⟩).diagnostics := by
    intro y hy
    obtain ⟨file, hfile, hy⟩ := Lint.mem_report_diagnostics.mp hy
    obtain ⟨parts, hp, -, rfl⟩ := Lint.mem_projectFiles.mp hfile
    exact ⟨parts, hp, hfile, hy⟩
  constructor
  · rw [Report.splitAt_toLines_iff hne]
    constructor
    · intro hlines hpath file hfile text ht hb
      obtain ⟨parts, hp, -, rfl⟩ := Lint.mem_projectFiles.mp hfile
      obtain ⟨y, hy, hbroken⟩ := Lint.exists_mem_of_breaks hd hl hp (hn parts hp) ht hb
      rw [← hpath] at hy
      have hline := hlines y (Lint.mem_report_diagnostics.mpr ⟨_, hfile, hy⟩)
      exact hbroken ((Lint.isLine_line_iff hd hp (hn parts hp) hy).mp hline)
    · intro hno y hy
      obtain ⟨parts, hp, hfile, hy⟩ := hmem y hy
      refine (Lint.isLine_line_iff hd hp (hn parts hp) hy).mpr ?_
      exact Lint.isLine_error_of_mem hd hl hp (hn parts hp) hy fun _ hpath => hno hpath _ hfile
  · intro y hy hrule
    obtain ⟨parts, hp, hfile, hy⟩ := hmem y hy
    refine (Lint.isLine_line_iff hd hp (hn parts hp) hy).mpr ?_
    exact Lint.isLine_error_of_mem hd hl hp (hn parts hp) hy fun hq => absurd hq hrule

theorem lined_standard : Conventions.Lined {} where
  setting k := by cases k <;> exact isLine_ofList.mpr (by decide)
  classes := by decide
  markers := by decide
  fronts := by decide
  docs _ := Conventions.isLine_standardDocs

/-- A test with a wrapper around it. -/
def wrappedText : String := "describe(\"a\", () => \x7b\n  test(\"b\", () => \x7b\x7d);\n\x7d);\n"

/-- A project with a test whose name has no naming class. -/
def wrappedTest : Disk where
  entries :=
    [(["p"], .directory), (["p", "src"], .directory), (["p", "src", "function"], .directory),
     (["p", "src", "function", "a.test.ts"],
       .file (wrappedText.toList.map fun c => .ofNat c.toNat))]

theorem filesBelow_wrappedTest {parts : List String} (h : parts ∈ wrappedTest.filesBelow ["p"]) :
    parts = ["src", "function", "a.test.ts"] := by
  obtain ⟨hne, bytes, hm⟩ := Disk.mem_filesBelow.mp h
  simp only [wrappedTest, List.mem_cons, List.not_mem_nil, Prod.mk.injEq, reduceCtorEq, and_false,
    or_false, false_or] at hm
  exact (List.append_right_inj ["p"]).mp hm.1

/-- The test is reported for its name, and on one line. -/
theorem toLines_lint_iff_wrappedTest :
    ∃ out, (lint .builtin wrappedTest { root := ⟨.root, ["p"]⟩ } (.int 0) (.int 0)).1 = .ok out ∧
      (∃ message, ⟨"function-file-name", message, "src/function/a.test.ts"⟩ ∈ out.diagnostics) ∧
      splitAt '\n' out.toLines.toList
        = out.diagnostics.map (fun y => (y.rule ++ ":" ++ y.file ++ ":" ++ y.error).toList) := by
  have hd : wrappedTest.WellFormed := by decide
  have hc : Conventions.ofProject wrappedTest (wrappedTest.absolute ⟨.root, ["p"]⟩) none
      = .ok {} := rfl
  have hr : (lint .builtin wrappedTest { root := ⟨.root, ["p"]⟩ } (.int 0) (.int 0)).1 = .ok _ :=
    lint_of_not_stops (by decide) hc fun hq => Scan.not_blocked_standard _ _ hq.2.1
  have ht : wrappedTest.readText ⟨.root, ["p", "src", "function", "a.test.ts"]⟩
      = .ok wrappedText := by
    decide +kernel
  have hn : ∀ parts ∈ wrappedTest.filesBelow ["p"], ∀ s ∈ parts, IsLine s := by
    intro parts hp
    rw [filesBelow_wrappedTest hp]
    decide
  have hvisited : ⟨.root, ["p", "src", "function", "a.test.ts"]⟩ ∈
      Lint.projectFiles wrappedTest ["p"] := by
    refine Lint.mem_projectFiles.mpr ⟨["src", "function", "a.test.ts"],
      Disk.mem_filesBelow.mpr ⟨by simp, wrappedText.toList.map fun c => .ofNat c.toNat, ?_⟩,
      by decide, rfl⟩
    simp [wrappedTest]
  have hname : ∃ message, ⟨"function-file-name", message, "src/function/a.test.ts"⟩ ∈
      (Lint.findingsOn .builtin ⟨.root, ["p"]⟩ {} false wrappedTest
        ⟨.root, ["p", "src", "function", "a.test.ts"]⟩).diagnostics := by
    have hv : Rule.functionFileName.verdict wrappedTest (.fresh ⟨.root, ["p"]⟩ {})
        (Lint.contextOf ⟨.root, ["p"]⟩ {} wrappedTest
          ⟨.root, ["p", "src", "function", "a.test.ts"]⟩ wrappedText)
        = .ok (some ⟨"function-file-name", _, "src/function/a.test.ts"⟩) := rfl
    refine ⟨_, Lint.mem_findingsOn_diagnostics.mpr ⟨wrappedText, ht, _,
      Lint.mem_rulesFor (by simp [Registry.builtin]) (fun h => by cases h) ?_, hv⟩⟩
    rw [hv]
    simp
  obtain ⟨message, hm⟩ := hname
  have hmem : (⟨"function-file-name", message, "src/function/a.test.ts"⟩ : Diagnostic) ∈
      (Lint.report .builtin (.int 0) (.int 0) (Lint.gathered .builtin ⟨.root, ["p"]⟩ {} false
        wrappedTest (Lint.projectFiles wrappedTest ["p"]))).diagnostics :=
    Lint.mem_report_diagnostics.mpr ⟨_, hvisited, hm⟩
  refine ⟨_, hr, ⟨message, hmem⟩, ?_⟩
  refine (toLines_lint_iff (q := { root := ⟨.root, ["p"]⟩ }) hd rfl hn hc lined_standard hr
    (List.ne_nil_of_mem hmem)).1.mpr ?_
  intro _ file hfile text ht'
  obtain ⟨parts, hp, -, rfl⟩ := Lint.mem_projectFiles.mp hfile
  rw [filesBelow_wrappedTest hp] at ht' ⊢
  have htext : text = wrappedText := Except.ok.inj (ht'.symm.trans ht)
  subst htext
  have hcalls : (TestLayout.calls wrappedText).tests = [] ∧
      (TestLayout.calls wrappedText).describes ≠ [] := by decide +kernel
  rintro (⟨hg, -⟩ | ⟨-, -, h | h⟩)
  · cases hg
  · exact h hcalls.1
  · exact hcalls.2 h

/-- A test without a wrapper is reported on more than one line, whatever its name. -/
theorem toLines_lint_brokenFunction :
    (∀ parts ∈ brokenFunction.filesBelow ["p"], ∀ s ∈ parts, IsLine s) ∧
    (∃ c, Conventions.ofProject brokenFunction (brokenFunction.absolute ⟨.root, ["p"]⟩) none = .ok c ∧
      c.Lined) ∧
    ∃ out, (lint .builtin brokenFunction { root := ⟨.root, ["p"]⟩ } (.int 0) (.int 0)).1 = .ok out ∧
      out.diagnostics ≠ [] ∧ splitAt '\n' out.toLines.toList
        ≠ out.diagnostics.map (fun y => (y.rule ++ ":" ++ y.file ++ ":" ++ y.error).toList) := by
  have hd : brokenFunction.WellFormed := by decide
  have hc : Conventions.ofProject brokenFunction (brokenFunction.absolute ⟨.root, ["p"]⟩) none
      = .ok {} := rfl
  have hr : (lint .builtin brokenFunction { root := ⟨.root, ["p"]⟩ } (.int 0) (.int 0)).1 = .ok _ :=
    lint_of_not_stops (by decide) hc fun hq => Scan.not_blocked_standard _ _ hq.2.1
  have hn : ∀ parts ∈ brokenFunction.filesBelow ["p"], ∀ s ∈ parts, IsLine s := by
    intro parts hp
    obtain ⟨hne, bytes, hm⟩ := Disk.mem_filesBelow.mp hp
    have hparts : parts = ["src", "function", "fx.a.test.ts"] ∨
        parts = ["src", "function", "fx.a.ts"] := by
      simp only [brokenFunction, List.mem_cons, List.not_mem_nil, Prod.mk.injEq, reduceCtorEq,
        and_false, or_false, false_or] at hm
      exact hm.imp (fun h => (List.append_right_inj ["p"]).mp h.1)
        fun h => (List.append_right_inj ["p"]).mp h.1
    rcases hparts with rfl | rfl <;> decide
  have ht : brokenFunction.readText ⟨.root, ["p", "src", "function", "fx.a.test.ts"]⟩ = .ok "" := by
    decide +kernel
  have hvisited := visited_brokenFunction "fx.a.test.ts" (by simp)
  have hp := Lint.below_of_mem_projectFiles hvisited
  have hsource : Rule.isTypedSource (Lint.contextOf ⟨.root, ["p"]⟩ {} brokenFunction
      ⟨.root, ["p"] ++ ["src", "function", "fx.a.test.ts"]⟩ "") = true := by
    unfold Rule.isTypedSource
    rw [Disk.relativePath?_contextOf hd hp]
    decide +kernel
  have hcalls : (TestLayout.calls "").describes = [] := by decide +kernel
  obtain ⟨y, hy, hbroken⟩ := Lint.exists_mem_of_breaks hd lined_standard hp (hn _ hp) ht
    (Or.inr ⟨rfl, hsource, Or.inr hcalls⟩)
  have hmem : y ∈ (Lint.report .builtin (.int 0) (.int 0) (Lint.gathered .builtin ⟨.root, ["p"]⟩ {}
      false brokenFunction (Lint.projectFiles brokenFunction ["p"]))).diagnostics :=
    Lint.mem_report_diagnostics.mpr ⟨_, hvisited, hy⟩
  have hne := List.ne_nil_of_mem hmem
  refine ⟨hn, ⟨_, hc, lined_standard⟩, _, hr, hne, fun hlines => hbroken ?_⟩
  have hline := (Report.splitAt_toLines_iff hne).mp hlines y hmem
  exact (Lint.isLine_line_iff hd hp (hn _ hp) hy).mp hline

end ConventionLint
