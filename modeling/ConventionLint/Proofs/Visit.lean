import ConventionLint.Lint
import ConventionLint.Proofs.Dispatch

/-! A run over a project gives what the visit of each file gives by itself. -/
namespace ConventionLint

open Run

/-- No rule depends on what was known before its check. -/
def Registry.Steady (g : Registry) (d : Volume) (c : Conventions) : Prop :=
  ∀ r ∈ g.entries, ∀ x : Context, x.conventions = c → (r.check x).Steady d

theorem steady_builtin {d : Volume} {c : Conventions} (hc : c.Consistent) :
    Registry.builtin.Steady d c := by
  rintro r hr x rfl
  exact Rule.steady_check hc hr

theorem Registry.mem_rules {g : Registry} {r : Rule} : r ∈ g.rules ↔ r ∈ g.entries := by
  simp [Registry.rules]

theorem Registry.mem_entries_of_mem_select {g : Registry} {p : Place}
    {names : Option (List String)} {pathOnly : Bool} {r : Rule}
    (h : r ∈ g.select p names pathOnly) : r ∈ g.entries :=
  Registry.mem_rules.mp (List.mem_filter.mp h).1

theorem Registry.mem_select {g : Registry} {p : Place} {pathOnly : Bool} {r : Rule} :
    r ∈ g.select p none pathOnly ↔
      r ∈ g.entries ∧ r.governs p = true ∧ (pathOnly = true → r.needsContent = false) := by
  cases pathOnly <;> simp [Registry.select, Registry.mem_rules]

/-- The rules of a registry on one file give the diagnostics of all of them, or the first failure that
is not skipped. -/
theorem exec_dispatch_fst {g : Registry} {d : Volume} {s : RunState} {x : Context}
    {names : Option (List String)} {pathOnly : Bool}
    (hs : ∀ r ∈ g.entries, (r.check x).Steady d) :
    ((g.dispatch x names pathOnly).exec d s).1 =
      match (g.select x.toPlace names pathOnly).findSome? fun r => escape? (r.verdict d s x) with
      | some e => .error e
      | none => .ok (Rule.shares d s x (g.select x.toPlace names pathOnly)).diagnostics := by
  rw [Registry.dispatch, exec_map_fst,
    Rule.exec_runAll_fst fun r hr => hs r (Registry.mem_entries_of_mem_select hr)]
  cases (g.select x.toPlace names pathOnly).findSome? fun r => escape? (r.verdict d s x) <;> rfl

namespace Lint

variable {g : Registry} {d : Volume} {root : Path} {c : Conventions} {pathOnly : Bool}
  {file : Path} {files : List Path} {s : RunState}

/-- The rules for a file, once its content is known. -/
def rulesFor (g : Registry) (root : Path) (c : Conventions) (pathOnly : Bool) (d : Volume)
    (file : Path) (text : String) : List Rule :=
  g.select (contextOf root c d file text).toPlace none pathOnly

/-- The failure that ends a run at a file. -/
def escapeOn (g : Registry) (root : Path) (c : Conventions) (pathOnly : Bool) (d : Volume)
    (file : Path) : Option Failure :=
  match content pathOnly d file with
  | .error _ => none
  | .ok text => (rulesFor g root c pathOnly d file text).findSome? fun r =>
      escape? (r.verdict d (.fresh root c) (contextOf root c d file text))

/-- The entry of a file that cannot be read. -/
def unreadable (file : Path) (e : ReadError) : String := file.toString ++ ": " ++ e.message

/-- The record of a file that cannot be read. -/
def unreadableWarning (file : Path) (e : ReadError) : LogRecord :=
  ⟨.warning, .linter, "Skipping unreadable file " ++ file.toString ++ ": " ++ e.message⟩

/-- What a run that does not end at a file finds there. -/
def findingsOn (g : Registry) (root : Path) (c : Conventions) (pathOnly : Bool) (d : Volume)
    (file : Path) : Findings :=
  match content pathOnly d file with
  | .error e => { errors := [unreadable file e] }
  | .ok text =>
    Rule.shares d (.fresh root c) (contextOf root c d file text)
      (rulesFor g root c pathOnly d file text)

/-- Whether a file counts as scanned. -/
def isScanned (g : Registry) (root : Path) (c : Conventions) (pathOnly : Bool) (d : Volume)
    (file : Path) : Bool :=
  match content pathOnly d file with
  | .error _ => false
  | .ok text => !(rulesFor g root c pathOnly d file text).isEmpty

/-- A rule that has something to say of a file is one of the rules for it. -/
theorem mem_rulesFor {text : String} {r : Rule} (hr : r ∈ g.entries)
    (hp : pathOnly = true → r.needsContent = false)
    (hv : r.verdict d (.fresh root c) (contextOf root c d file text) ≠ .ok none) :
    r ∈ rulesFor g root c pathOnly d file text := by
  refine Registry.mem_select.mpr ⟨hr, ?_, hp⟩
  cases hg : r.governs (contextOf root c d file text).toPlace with
  | true => rfl
  | false => exact (hv (Rule.verdict_of_not_governs hg)).elim

/-- What is found on a file is what the rules for it find, once its content is known. -/
theorem mem_findingsOn_diagnostics {y : Diagnostic} :
    y ∈ (findingsOn g root c pathOnly d file).diagnostics ↔
      ∃ text, content pathOnly d file = .ok text ∧
        ∃ r ∈ rulesFor g root c pathOnly d file text,
          r.verdict d (.fresh root c) (contextOf root c d file text) = .ok (some y) := by
  unfold findingsOn
  cases content pathOnly d file with
  | error e => simp
  | ok text => simp [Rule.mem_shares_diagnostics]

theorem steady_rulesFor (h : g.Steady d c) {d' : Volume} {text : String} :
    ∀ r ∈ rulesFor g root c pathOnly d' file text,
      (r.check (contextOf root c d' file text)).Steady d := by
  intro r hr
  exact h r (Registry.mem_select.mp hr).1 _ rfl

theorem steady_visit (h : g.Steady d c) :
    (visit g root c pathOnly file).Steady d := by
  refine steady_bind steady_read fun d' => ?_
  split
  · exact steady_bind (steady_record _ _ _) fun _ => steady_pure _
  · dsimp only
    split
    · exact steady_pure _
    · exact steady_bind (Rule.steady_runAll (steady_rulesFor h)) fun _ => steady_pure _

theorem exec_visit_unreadable {e : ReadError} (h : content pathOnly d file = .error e) :
    (visit g root c pathOnly file).exec d s =
      (.ok { findings := { errors := [unreadable file e] } },
        { s with log := s.log ++ [unreadableWarning file e] }) := by
  rw [visit, exec_bind_ok exec_read, h]
  rfl

theorem exec_visit_empty {text : String} (h : content pathOnly d file = .ok text)
    (hr : rulesFor g root c pathOnly d file text = []) :
    (visit g root c pathOnly file).exec d s = (.ok {}, s) := by
  unfold rulesFor at hr
  rw [visit, exec_bind_ok exec_read, h]
  dsimp only
  rw [hr]
  rfl

theorem exec_visit_rules {text : String} (h : content pathOnly d file = .ok text)
    (hr : rulesFor g root c pathOnly d file text ≠ []) :
    (visit g root c pathOnly file).exec d s =
      (Rule.runAll (contextOf root c d file text) (rulesFor g root c pathOnly d file text) >>=
        fun f => pure { findings := f, filesScanned := 1 }).exec d s := by
  unfold rulesFor at hr ⊢
  rw [visit, exec_bind_ok exec_read, h]
  dsimp only
  split
  · rename_i he
    exact (hr he).elim
  · rfl

/-- A visit ends with a failure or gives the findings on the file. -/
theorem exec_visit_fst (h : g.Steady d c) :
    ((visit g root c pathOnly file).exec d (.fresh root c)).1 =
      match escapeOn g root c pathOnly d file with
      | some e => .error e
      | none => .ok
          { findings := findingsOn g root c pathOnly d file
            filesScanned := (isScanned g root c pathOnly d file).toNat } := by
  unfold escapeOn findingsOn isScanned
  cases ht : content pathOnly d file with
  | error e =>
    rw [exec_visit_unreadable ht]
    rfl
  | ok text =>
    dsimp only
    by_cases hr : rulesFor g root c pathOnly d file text = []
    · rw [exec_visit_empty ht hr, hr]
      simp [Rule.shares]
    · rw [exec_visit_rules ht hr, exec_map_fst, Rule.exec_runAll_fst (steady_rulesFor h)]
      cases (rulesFor g root c pathOnly d file text).findSome? fun r =>
        escape? (r.verdict d (.fresh root c) (contextOf root c d file text)) with
      | some e => rfl
      | none =>
        have he : (rulesFor g root c pathOnly d file text).isEmpty = false := by simpa using hr
        rw [he]
        rfl

theorem steady_visitAll (h : g.Steady d c) :
    (visitAll g root c pathOnly files).Steady d := by
  induction files with
  | nil => exact steady_pure _
  | cons file files ih =>
    refine steady_bind (steady_visit h) fun tally => ?_
    exact steady_bind ih fun _ => steady_pure _

/-- The findings on all files, one after the other. -/
def gathered (g : Registry) (root : Path) (c : Conventions) (pathOnly : Bool) (d : Volume)
    (files : List Path) : Tally :=
  { findings :=
      { diagnostics := files.flatMap fun f => (findingsOn g root c pathOnly d f).diagnostics
        errors := files.flatMap fun f => (findingsOn g root c pathOnly d f).errors }
    filesScanned := files.countP (isScanned g root c pathOnly d) }

theorem mem_report_diagnostics {y : Diagnostic} {start finish : Data.Number} :
    y ∈ (report g start finish (gathered g root c pathOnly d files)).diagnostics ↔
      ∃ file ∈ files, y ∈ (findingsOn g root c pathOnly d file).diagnostics := by
  simp [report, gathered]

/-- The first file with a failure that is not skipped ends the run. -/
theorem exec_visitAll_fst (h : g.Steady d c) :
    ((visitAll g root c pathOnly files).exec d (.fresh root c)).1 =
      match files.findSome? (escapeOn g root c pathOnly d) with
      | some e => .error e
      | none => .ok (gathered g root c pathOnly d files) := by
  induction files with
  | nil => rfl
  | cons file files ih =>
    have hf : (visitAll g root c pathOnly files).Steady d := steady_visitAll h
    rw [visitAll, exec_bind_fst (steady_visit h) fun tally => steady_bind hf fun _ => steady_pure _,
      exec_visit_fst h, List.findSome?_cons]
    cases escapeOn g root c pathOnly d file with
    | some e => rfl
    | none =>
      dsimp only
      rw [exec_map_fst, ih]
      cases files.findSome? (escapeOn g root c pathOnly d) with
      | some e => rfl
      | none =>
        cases hs : isScanned g root c pathOnly d file <;>
          simp [Except.map, Tally.append, gathered, hs, Nat.add_comm]

/-- What the visit of one file always logs is in the log of the run. -/
theorem mem_log_visitAll (h : g.Steady d c) {record : LogRecord}
    (hv : ∀ s : RunState, s.known d = (RunState.fresh root c).known d →
      record ∈ ((visit g root c pathOnly file).exec d s).2.log)
    (hn : ∀ f ∈ files, escapeOn g root c pathOnly d f = none) (hf : file ∈ files)
    (hs : s.known d = (RunState.fresh root c).known d) :
    record ∈ ((visitAll g root c pathOnly files).exec d s).2.log := by
  induction files generalizing s with
  | nil => cases hf
  | cons first files ih =>
    have hd : (visit g root c pathOnly first).Steady d := steady_visit h
    have hw := hd.result hs
    have ht := (hd.known s).trans hs
    rw [exec_visit_fst h, hn first (List.mem_cons_self ..)] at hw
    rcases hx : (visit g root c pathOnly first).exec d s with ⟨_ | tally, t⟩ <;>
      rw [hx] at hw ht
    · cases hw
    · rw [visitAll, exec_bind_ok hx, exec_map_snd]
      rcases List.mem_cons.mp hf with rfl | hf
      · have hl := hv s hs
        rw [hx] at hl
        exact ((steady_visitAll h).log t).subset hl
      · exact ih (fun f hf => hn f (List.mem_cons_of_mem _ hf)) hf ht

theorem mem_log_unreadable {e : ReadError} (ht : content pathOnly d file = .error e) :
    unreadableWarning file e ∈ ((visit g root c pathOnly file).exec d s).2.log := by
  simp [exec_visit_unreadable ht]

theorem mem_log_warning (h : g.Steady d c) {text : String} {r : Rule} {e : Failure}
    (ht : content pathOnly d file = .ok text) (hr : r ∈ rulesFor g root c pathOnly d file text)
    (hv : r.verdict d (.fresh root c) (contextOf root c d file text) = .error e)
    (hn : escapeOn g root c pathOnly d file = none)
    (hs : s.known d = (RunState.fresh root c).known d) :
    r.warning (contextOf root c d file text) e ∈
      ((visit g root c pathOnly file).exec d s).2.log := by
  rw [exec_visit_rules ht (List.ne_nil_of_mem hr), exec_map_snd, Rule.runAll, exec_map_snd]
  refine Rule.warning_mem_runEach (steady_rulesFor h) hs ?_ hr hv
  unfold escapeOn at hn
  rw [ht] at hn
  exact fun r hr => List.findSome?_eq_none_iff.mp hn r hr

end Lint

/-- The files that a request is about. -/
def LintRequest.paths (q : LintRequest) (d : Volume) : List Path :=
  match q.files with
  | some paths => paths.map d.absolute
  | none => Lint.projectFiles d (d.absolute q.root).parts

variable {g : Registry} {d : Volume} {c : Conventions} {q : LintRequest} {start finish : Data.Number}

theorem lint_of_conventions (hv : q.isValid = true)
    (hc : Conventions.ofProject d (d.absolute q.root) q.config = .ok c) :
    lint g d q start finish =
      match (Lint.visitAll g (d.absolute q.root) c q.pathOnly (q.paths d)).exec d
        (.fresh (d.absolute q.root) c) with
      | (.error e, s) => (.error (.failure e), s.log)
      | (.ok tally, s) =>
        (.ok (Lint.report g start finish tally),
          s.log ++ [⟨.debug, .linter, Lint.summary (Lint.report g start finish tally)⟩]) := by
  obtain ⟨hroot, hnames⟩ := Bool.and_eq_true_iff.mp hv
  unfold lint
  simp only [hc, hroot, hnames, Bool.not_true, Bool.false_eq_true, if_false]
  rfl

/-- What cannot be asked for ends the run. -/
theorem lint_of_invalid (hv : q.isValid = false)
    (hc : Conventions.ofProject d (d.absolute q.root) q.config = .ok c) :
    lint g d q start finish = (.error (.path .invalidPath), []) := by
  unfold lint
  simp only [hc]
  cases hroot : q.root.isValid with
  | false => rfl
  | true =>
    have hnames : q.namesValid = false := by simpa [LintRequest.isValid, hroot] using hv
    rw [hnames]
    rfl

theorem lint_of_refused {e : LoadError} (hv : q.root.isValid = true)
    (h : Conventions.ofProject d (d.absolute q.root) q.config = .error e) :
    (lint g d q start finish).1
      = .error (if e.isInvalid || e.isUnreadable then .configuration e else .load e) := by
  unfold lint
  simp only [h, hv, Bool.not_true, Bool.false_eq_true, if_false]

/-- A run that ends with a report is about what can be asked for, and has conventions. -/
theorem isValid_of_lint_ok {out : Report} (h : (lint g d q start finish).1 = .ok out) :
    q.isValid = true ∧ ∃ c, Conventions.ofProject d (d.absolute q.root) q.config = .ok c := by
  have hroot : q.root.isValid = true := by
    cases hroot : q.root.isValid with
    | true => rfl
    | false =>
      unfold lint at h
      rw [hroot] at h
      cases h
  cases hc : Conventions.ofProject d (d.absolute q.root) q.config with
  | error e =>
    rw [lint_of_refused hroot hc] at h
    cases h
  | ok c =>
    refine ⟨?_, c, rfl⟩
    cases hv : q.isValid with
    | true => rfl
    | false =>
      rw [lint_of_invalid hv hc] at h
      cases h

/-- A run over a project ends with the first failure that is not skipped, or else reports the findings
on all its files. -/
theorem lint_eq (h : g.Steady d c) (hv : q.isValid = true)
    (hc : Conventions.ofProject d (d.absolute q.root) q.config = .ok c) :
    (lint g d q start finish).1 =
      match (q.paths d).findSome? (Lint.escapeOn g (d.absolute q.root) c q.pathOnly d) with
      | some e => .error (.failure e)
      | none => .ok (Lint.report g start finish
          (Lint.gathered g (d.absolute q.root) c q.pathOnly d (q.paths d))) := by
  have ha : ((Lint.visitAll g (d.absolute q.root) c q.pathOnly (q.paths d)).exec d
      (.fresh (d.absolute q.root) c)).1 = _ := Lint.exec_visitAll_fst h
  rw [lint_of_conventions hv hc]
  rcases hx : (Lint.visitAll g (d.absolute q.root) c q.pathOnly (q.paths d)).exec d
    (.fresh (d.absolute q.root) c) with ⟨_ | tally, s⟩ <;> rw [hx] at ha <;> dsimp only at ha ⊢
  · split at ha
    · cases ha
      rfl
    · cases ha
  · split at ha
    · cases ha
    · cases ha
      rfl

/-- A run that ends with a report has no failure that ends it, and reports what it found. -/
theorem of_lint_ok {out : Report} (hs : g.Steady d c)
    (hc : Conventions.ofProject d (d.absolute q.root) q.config = .ok c)
    (hr : (lint g d q start finish).1 = .ok out) :
    (∀ file ∈ q.paths d, Lint.escapeOn g (d.absolute q.root) c q.pathOnly d file = none) ∧
      out = Lint.report g start finish
        (Lint.gathered g (d.absolute q.root) c q.pathOnly d (q.paths d)) := by
  rw [lint_eq hs (isValid_of_lint_ok hr).1 hc] at hr
  split at hr
  · cases hr
  · rename_i hn
    exact ⟨List.findSome?_eq_none_iff.mp hn, (Except.ok.inj hr).symm⟩

theorem mem_log_lint {record : LogRecord} (hv : q.isValid = true)
    (hc : Conventions.ofProject d (d.absolute q.root) q.config = .ok c)
    (hr : record ∈ ((Lint.visitAll g (d.absolute q.root) c q.pathOnly (q.paths d)).exec d
      (.fresh (d.absolute q.root) c)).2.log) :
    record ∈ (lint g d q start finish).2 := by
  rw [lint_of_conventions hv hc]
  rcases hx : (Lint.visitAll g (d.absolute q.root) c q.pathOnly (q.paths d)).exec d
    (.fresh (d.absolute q.root) c) with ⟨_ | tally, s⟩ <;> rw [hx] at hr
  · exact hr
  · exact List.mem_append_left _ hr

end ConventionLint
