import ConventionLint.Proofs.Checks
import ConventionLint.Rule.Dispatch

/-! Rules at work on one file give what each of them gives by itself. -/
namespace ConventionLint

open Run

/-- The failure that ends a run, if a result is one. -/
def escape? {α : Type} : Except Failure α → Option Failure
  | .ok _ => none
  | .error e => if e.isSkipped then none else some e

theorem escape?_ok {α : Type} (a : α) : escape? (.ok a : Except Failure α) = none := rfl

theorem escape?_skipped {α : Type} {e : Failure} (h : e.isSkipped = true) :
    escape? (.error e : Except Failure α) = none := by
  simp [escape?, h]

theorem escape?_error {α : Type} {e : Failure} (h : e.isSkipped = false) :
    escape? (.error e : Except Failure α) = some e := by
  simp [escape?, h]

theorem escape?_eq_some_iff {α : Type} {v : Except Failure α} {e : Failure} :
    escape? v = some e ↔ v = .error e ∧ e.isSkipped = false := by
  cases v with
  | ok a => simp [escape?]
  | error f =>
    cases hf : f.isSkipped with
    | true =>
      simp only [escape?_skipped hf, reduceCtorEq, Except.error.injEq, false_iff]
      rintro ⟨rfl, he⟩
      rw [hf] at he
      cases he
    | false =>
      simp only [escape?_error hf, Option.some.injEq, Except.error.injEq]
      constructor
      · rintro rfl
        exact ⟨rfl, hf⟩
      · exact And.left

theorem isSkipped_of_escape? {α : Type} {e : Failure}
    (h : escape? (.error e : Except Failure α) = none) : e.isSkipped = true := by
  cases he : e.isSkipped with
  | true => rfl
  | false =>
    rw [escape?_error he] at h
    cases h

/-! What holds of the checks of some rules holds of the rules at work. -/

namespace Run.Compositional

variable {P : (α : Type) → Run α → Prop} {x : Context} {r : Rule} {rs : List Rule}

theorem outcome (hP : Compositional P) (h : P Outcome (r.check x)) : P Outcome (r.outcome x) := by
  unfold Rule.outcome
  split
  · exact hP.pure _
  · refine hP.bind (hP.attempt h) fun o => ?_
    split
    · exact hP.pure _
    · split
      · exact hP.pure _
      · exact hP.fail _

theorem evaluate (hP : Compositional P) (h : P Outcome (r.check x)) :
    P Outcome (r.evaluate x) := by
  refine hP.bind (hP.outcome h) fun o => ?_
  split
  · exact hP.bind (hP.record _ _ _) fun _ => hP.pure _
  · exact hP.pure _

theorem diagnose (hP : Compositional P) (h : P Outcome (r.check x)) :
    P (Option Diagnostic) (r.diagnose x) :=
  hP.bind (hP.evaluate h) fun _ => hP.pure _

theorem runEach (hP : Compositional P) (h : ∀ r ∈ rs, P Outcome (r.check x)) :
    P Findings (Rule.runEach x rs) := by
  induction rs with
  | nil => exact hP.pure _
  | cons r rs ih =>
    have hr := h r (List.mem_cons_self ..)
    have hrs := ih fun r hr => h r (List.mem_cons_of_mem _ hr)
    refine hP.bind (hP.attempt (hP.diagnose hr)) fun v => ?_
    split
    · exact hP.bind hrs fun _ => hP.pure _
    · split
      · refine hP.bind (hP.record _ _ _) fun _ => ?_
        exact hP.bind hrs fun _ => hP.pure _
      · exact hP.fail _

theorem runAll (hP : Compositional P) (h : ∀ r ∈ rs, P Outcome (r.check x)) :
    P Findings (Rule.runAll x rs) :=
  hP.bind (hP.runEach h) fun _ => hP.pure _

end Run.Compositional

namespace Rule

variable {d : Volume} {s : RunState} {x : Context} {r : Rule} {rs : List Rule}

/-- What a rule finds in a file, from a state on. -/
def verdict (d : Volume) (s : RunState) (x : Context) (r : Rule) :
    Except Failure (Option Diagnostic) :=
  ((r.diagnose x).exec d s).1

/-- The entry of a rule that failed on a file. -/
def entry (x : Context) (r : Rule) (e : Failure) : String :=
  r.name ++ ": " ++ x.file ++ ": " ++ e.message

/-- The record of a rule that failed on a file. -/
def warning (x : Context) (r : Rule) (e : Failure) : LogRecord :=
  ⟨.warning, .dispatcher, "Rule " ++ r.name ++ " failed on " ++ x.file ++ ": " ++ e.message⟩

/-- What a rule adds to the findings on a file. -/
def share (d : Volume) (s : RunState) (x : Context) (r : Rule) : Findings :=
  match r.verdict d s x with
  | .ok diagnostic => { diagnostics := diagnostic.toList }
  | .error e => { errors := [r.entry x e] }

/-- The path that a diagnostic on a file names. -/
def shownPath (x : Context) : String :=
  let path := x.relativePath?.getD ""
  if path.isEmpty then x.file else path

/-- A rule is silent on a file that it is not for and on content that is no module, else its check
decides. -/
theorem exec_outcome_fst : ((r.outcome x).exec d s).1 =
    if r.governs x.toPlace then
      match ((r.check x).exec d s).1 with
      | .ok o => .ok o
      | .error e => if e.isParse then .ok (.skipped e.message) else .error e
    else .ok (.skipped ("not governed by " ++ r.name)) := by
  unfold outcome
  cases r.governs x.toPlace with
  | false => rfl
  | true =>
    simp only [Bool.not_true, Bool.false_eq_true, if_false, if_true]
    rw [exec_bind_ok (exec_attempt _)]
    cases ((r.check x).exec d s).1 with
    | ok o => rfl
    | error e =>
      dsimp only
      split <;> rfl

theorem exec_evaluate_fst : ((r.evaluate x).exec d s).1 = ((r.outcome x).exec d s).1 := by
  unfold evaluate
  rcases hx : (r.outcome x).exec d s with ⟨_ | o, t⟩
  · rw [exec_bind_error hx]
  · rw [exec_bind_ok hx]
    split <;> rfl

theorem verdict_eq (d : Volume) (s : RunState) (x : Context) (r : Rule) :
    r.verdict d s x = ((r.outcome x).exec d s).1.map (r.diagnostic? x) := by
  rw [← exec_evaluate_fst]
  exact exec_map_fst _ _

/-- A rule says nothing of a file that it is not for. -/
theorem verdict_of_not_governs (h : r.governs x.toPlace = false) : r.verdict d s x = .ok none := by
  rw [verdict_eq, exec_outcome_fst, h]
  rfl

/-- A rule fails on a file as its check does, but for content that is no module. -/
theorem verdict_eq_error_iff {e : Failure} : r.verdict d s x = .error e ↔
    r.governs x.toPlace = true ∧ ((r.check x).exec d s).1 = .error e ∧ e.isParse = false := by
  rw [verdict_eq, exec_outcome_fst]
  cases r.governs x.toPlace with
  | false => simp [Except.map]
  | true =>
    cases ((r.check x).exec d s).1 with
    | ok o => simp [Except.map]
    | error f =>
      cases hf : f.isParse with
      | true =>
        simp only [if_true, hf, Except.map, reduceCtorEq, true_and, false_iff]
        rintro ⟨⟨⟩, he⟩
        rw [hf] at he
        cases he
      | false =>
        simp only [if_true, hf, Except.map, true_and, Bool.false_eq_true, if_false]
        constructor
        · rintro ⟨⟩
          exact ⟨rfl, hf⟩
        · rintro ⟨⟨⟩, -⟩
          rfl

/-- A diagnostic names its rule and the file. -/
theorem eq_of_verdict {y : Diagnostic} (h : r.verdict d s x = .ok (some y)) :
    y = ⟨r.name, y.error, shownPath x⟩ := by
  rw [verdict_eq] at h
  cases ho : ((r.outcome x).exec d s).1 with
  | error e =>
    rw [ho] at h
    cases h
  | ok o =>
    rw [ho] at h
    obtain ⟨message, -, rfl⟩ := Option.map_eq_some_iff.mp (Except.ok.inj h)
    rfl

theorem file_of_verdict {y : Diagnostic} (h : r.verdict d s x = .ok (some y)) :
    y.file = shownPath x := by
  rw [eq_of_verdict h]

theorem rule_of_verdict {y : Diagnostic} (h : r.verdict d s x = .ok (some y)) :
    y.rule = r.name := by
  rw [eq_of_verdict h]

theorem steady_diagnose (h : (r.check x).Steady d) : (r.diagnose x).Steady d :=
  compositional_steady.diagnose h

theorem steady_runEach (h : ∀ r ∈ rs, (r.check x).Steady d) : (runEach x rs).Steady d :=
  compositional_steady.runEach h

theorem exec_runEach_ok {s t : RunState} {o : Option Diagnostic}
    (h : (r.diagnose x).exec d s = (.ok o, t)) :
    (runEach x (r :: rs)).exec d s =
      (runEach x rs >>= fun rest =>
        pure { rest with diagnostics := o.toList ++ rest.diagnostics }).exec d t := by
  rw [runEach, exec_bind_ok (exec_attempt _), h]

theorem exec_runEach_skipped {s t : RunState} {e : Failure}
    (h : (r.diagnose x).exec d s = (.error e, t)) (he : e.isSkipped = true) :
    (runEach x (r :: rs)).exec d s =
      (runEach x rs >>= fun rest =>
        pure { rest with errors := r.entry x e :: rest.errors }).exec d
          { t with log := t.log ++ [r.warning x e] } := by
  rw [runEach, exec_bind_ok (exec_attempt _), h]
  simp only [he]
  rfl

theorem exec_runEach_escape {s t : RunState} {e : Failure}
    (h : (r.diagnose x).exec d s = (.error e, t)) (he : e.isSkipped = false) :
    (runEach x (r :: rs)).exec d s = (.error e, t) := by
  rw [runEach, exec_bind_ok (exec_attempt _), h]
  simp only [he]
  rfl

/-- The first failure that is not skipped ends the run; without one, all rules add their share. -/
theorem exec_runEach_fst (h : ∀ r ∈ rs, (r.check x).Steady d) :
    ((runEach x rs).exec d s).1 =
      match rs.findSome? fun r => escape? (r.verdict d s x) with
      | some e => .error e
      | none => .ok
          { diagnostics := rs.flatMap fun r => (r.share d s x).diagnostics
            errors := rs.flatMap fun r => (r.share d s x).errors } := by
  induction rs with
  | nil => rfl
  | cons r rs ih =>
    have hrs := steady_runEach fun r hr => h r (List.mem_cons_of_mem _ hr)
    have ih := ih fun r hr => h r (List.mem_cons_of_mem _ hr)
    have hk := (steady_diagnose (h r (List.mem_cons_self ..))).known s
    rcases hx : (r.diagnose x).exec d s with ⟨e | o, t⟩ <;> rw [hx] at hk <;> dsimp only at hk
    · have hv : r.verdict d s x = .error e := congrArg Prod.fst hx
      rw [List.findSome?_cons, hv]
      cases he : e.isSkipped with
      | true =>
        have hu : ({ t with log := t.log ++ [r.warning x e] } : RunState).known d = s.known d := hk
        rw [exec_runEach_skipped hx he, exec_map_fst, hrs.result hu, ih, escape?_skipped he]
        cases rs.findSome? fun r => escape? (r.verdict d s x) with
        | some e => rfl
        | none => simp [Except.map, share, hv]
      | false => rw [exec_runEach_escape hx he, escape?_error he]
    · have hv : r.verdict d s x = .ok o := congrArg Prod.fst hx
      rw [List.findSome?_cons, hv, exec_runEach_ok hx, exec_map_fst, hrs.result hk, ih, escape?_ok]
      cases rs.findSome? fun r => escape? (r.verdict d s x) with
      | some e => rfl
      | none => simp [Except.map, share, hv]

/-- Every failure that is skipped is logged. -/
theorem warning_mem_runEach {s t : RunState} {e : Failure}
    (h : ∀ r ∈ rs, (r.check x).Steady d) (ht : t.known d = s.known d)
    (hn : ∀ r ∈ rs, escape? (r.verdict d s x) = none) (hr : r ∈ rs)
    (hv : r.verdict d s x = .error e) :
    r.warning x e ∈ ((runEach x rs).exec d t).2.log := by
  induction rs generalizing t with
  | nil => cases hr
  | cons first rs ih =>
    have hd := steady_diagnose (h first (List.mem_cons_self ..))
    have hrest : ∀ r ∈ rs, (r.check x).Steady d := fun r hr => h r (List.mem_cons_of_mem _ hr)
    have hn' : ∀ r ∈ rs, escape? (r.verdict d s x) = none :=
      fun r hr => hn r (List.mem_cons_of_mem _ hr)
    have hw : ((first.diagnose x).exec d t).1 = first.verdict d s x := hd.result ht
    have hk := (hd.known t).trans ht
    have he := hn first (List.mem_cons_self ..)
    rw [← hw] at he
    rcases hx : (first.diagnose x).exec d t with ⟨e' | o, u⟩ <;> rw [hx] at hk hw he
    · rw [exec_runEach_skipped hx (isSkipped_of_escape? he), exec_map_snd]
      rcases List.mem_cons.mp hr with rfl | hr
      · rw [hv] at hw
        cases hw
        exact ((steady_runEach hrest).log _).subset (by simp)
      · exact ih hrest hk hn' hr
    · rw [exec_runEach_ok hx, exec_map_snd]
      rcases List.mem_cons.mp hr with rfl | hr
      · rw [hv] at hw
        cases hw
      · exact ih hrest hk hn' hr

theorem steady_runAll (h : ∀ r ∈ rs, (r.check x).Steady d) : (runAll x rs).Steady d :=
  compositional_steady.runAll h

/-- What rules find in a file together: the shares of all, in the order of the rules' names. -/
def shares (d : Volume) (s : RunState) (x : Context) (rs : List Rule) : Findings :=
  { diagnostics := (rs.flatMap fun r => (r.share d s x).diagnostics).mergeSort
      fun a b => decide (a.rule ≤ b.rule)
    errors := rs.flatMap fun r => (r.share d s x).errors }

theorem mem_share_diagnostics {y : Diagnostic} :
    y ∈ (r.share d s x).diagnostics ↔ r.verdict d s x = .ok (some y) := by
  unfold share
  split <;> simp_all

theorem mem_shares_diagnostics {y : Diagnostic} :
    y ∈ (shares d s x rs).diagnostics ↔ ∃ r ∈ rs, r.verdict d s x = .ok (some y) := by
  simp [shares, mem_share_diagnostics]

theorem mem_shares_errors {text : String} :
    text ∈ (shares d s x rs).errors ↔
      ∃ r ∈ rs, ∃ e, r.verdict d s x = .error e ∧ text = r.entry x e := by
  simp only [shares, List.mem_flatMap]
  refine exists_congr fun r => and_congr_right fun _ => ?_
  unfold share
  split <;> simp_all

theorem exec_runAll_fst (h : ∀ r ∈ rs, (r.check x).Steady d) :
    ((runAll x rs).exec d s).1 =
      match rs.findSome? fun r => escape? (r.verdict d s x) with
      | some e => .error e
      | none => .ok (shares d s x rs) := by
  rw [runAll, exec_map_fst, exec_runEach_fst h]
  cases rs.findSome? fun r => escape? (r.verdict d s x) <;> rfl

end Rule

end ConventionLint
