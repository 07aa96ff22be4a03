import Mathlib.Data.List.Basic
import ConventionLint.Proofs.Contract

/-! Rules at work on one file do not get in each other's way: each adds what it finds or that it
failed, whatever the others do and wherever it stands among them. -/
namespace ConventionLint

open Run

variable {d : Volume} {s : RunState} {x : Context} {r : Rule} {rs rs' : List Rule}

namespace Rule

/-- A rule whose check sees the file, the disk and the catalog only. If the check fails a file it says
why, and if it gives no answer then because the content is no module or by a failure that is
skipped. -/
structure Regular (d : Volume) (x : Context) (r : Rule) : Prop where
  steady : (r.check x).Steady d
  message : ∀ s, ((r.check x).exec d s).1 ≠ .ok (.fail none)
  failure : ∀ s e, ((r.check x).exec d s).1 = .error e → e.isParse = true ∨ e.isSkipped = true

/-- The diagnostic of a rule that is for a file and fails it. -/
def violation (d : Volume) (s : RunState) (x : Context) (r : Rule) : Option Diagnostic :=
  if r.governs x.toPlace then
    match ((r.check x).exec d s).1 with
    | .ok (.fail (some error)) => some ⟨r.name, error, shownPath x⟩
    | _ => none
  else none

/-- The entry of a rule that is for a file and gives no answer on a module. -/
def complaint (d : Volume) (s : RunState) (x : Context) (r : Rule) : Option String :=
  if r.governs x.toPlace then
    match ((r.check x).exec d s).1 with
    | .error e => if e.isParse then none else some (r.entry x e)
    | .ok _ => none
  else none

theorem rule_of_violation {y : Diagnostic} (h : r.violation d s x = some y) : y.rule = r.name := by
  unfold violation at h
  split at h
  · split at h
    · cases h
      rfl
    · cases h
  · cases h

/-- What a rule adds to the findings is its violation or its complaint. -/
theorem share_eq (d : Volume) (s : RunState) (x : Context) (r : Rule) : r.share d s x =
    { diagnostics := (r.violation d s x).toList, errors := (r.complaint d s x).toList } := by
  have hv : r.verdict d s x = _ := verdict_eq d s x r
  rw [exec_outcome_fst] at hv
  unfold share violation complaint
  rw [hv]
  cases r.governs x.toPlace with
  | false => rfl
  | true =>
    simp only [if_true]
    rcases ((r.check x).exec d s).1 with e | _ | (_ | _) | _
    · cases hp : e.isParse <;> simp only [hp] <;> rfl
    all_goals rfl

theorem diagnostics_shares_perm (d : Volume) (s : RunState) (x : Context) (rs : List Rule) :
    (shares d s x rs).diagnostics.Perm (rs.filterMap (violation d s x)) := by
  have hs : (rs.flatMap fun r => (r.share d s x).diagnostics) = rs.filterMap (violation d s x) := by
    simp only [share_eq, List.filterMap_eq_flatMap_toList]
  rw [← hs]
  exact List.mergeSort_perm _ _

theorem errors_shares (d : Volume) (s : RunState) (x : Context) (rs : List Rule) :
    (shares d s x rs).errors = rs.filterMap (complaint d s x) := by
  simp only [shares, share_eq, List.filterMap_eq_flatMap_toList]

theorem Regular.escape?_eq_none (h : r.Regular d x) : escape? (r.verdict d s x) = none := by
  cases hv : r.verdict d s x with
  | ok o => exact escape?_ok o
  | error e =>
    obtain ⟨-, he, hp⟩ := verdict_eq_error_iff.mp hv
    rcases h.failure s e he with hparse | hskipped
    · simp [hparse] at hp
    · exact escape?_skipped hskipped

/-- No regular rule ends the run, so all of them add their share. -/
theorem exec_runAll_of_regular (h : ∀ r ∈ rs, r.Regular d x) :
    ((runAll x rs).exec d s).1 = .ok (shares d s x rs) := by
  have hn : (rs.findSome? fun r => escape? (r.verdict d s x)) = none :=
    List.findSome?_eq_none_iff.mpr fun r hr => (h r hr).escape?_eq_none
  rw [exec_runAll_fst fun r hr => (h r hr).steady, hn]

/-- Two lists in the order of the rules that have the same diagnostics are the same, if no rule has
two. -/
theorem eq_of_rule_order {l l' : List Diagnostic} (h : l.Pairwise fun a b => a.rule ≤ b.rule)
    (h' : l'.Pairwise fun a b => a.rule ≤ b.rule) (hn : (l.map (·.rule)).Nodup) (hp : l.Perm l') :
    l = l' := by
  refine List.Perm.eq_of_pairwise ?_ h h' hp
  intro y z hy hz hyz hzy
  exact List.inj_on_of_nodup_map hn hy (hp.mem_iff.mpr hz) (String.le_antisymm hyz hzy)

theorem lt_of_mem_shares (hn : (rs.map (·.name)).Nodup) :
    (shares d s x rs).diagnostics.Pairwise fun a b => a.rule < b.rule := by
  have hne := List.pairwise_map.mp (nodup_shares (d := d) (s := s) (x := x) hn)
  refine (pairwise_shares.and hne).imp ?_
  rintro a b ⟨hle, hne⟩
  exact Classical.byContradiction fun hlt => hne (String.le_antisymm hle hlt)

/-- The order of the rules does not matter for what they find. -/
theorem diagnostics_shares_eq_of_perm (hn : (rs.map (·.name)).Nodup) (hp : rs.Perm rs') :
    (shares d s x rs).diagnostics = (shares d s x rs').diagnostics := by
  refine eq_of_rule_order pairwise_shares pairwise_shares (nodup_shares hn) ?_
  have hv := hp.filterMap (violation d s x)
  exact (diagnostics_shares_perm d s x rs).trans (hv.trans (diagnostics_shares_perm d s x rs').symm)

/-- What rules of some names find among others is what they find by themselves. -/
theorem filter_shares (hn : (rs.map (·.name)).Nodup) (p : String → Bool) :
    ((shares d s x rs).diagnostics.filter fun y => p y.rule) =
      (shares d s x (rs.filter fun r => p r.name)).diagnostics := by
  have hv : (rs.filterMap (violation d s x)).filter (fun y => p y.rule) =
      (rs.filter fun r => p r.name).filterMap (violation d s x) := by
    rw [List.filter_filterMap, List.filterMap_filter]
    refine List.filterMap_congr fun r _ => ?_
    cases hr : r.violation d s x with
    | none => simp
    | some y => simp [Option.filter, rule_of_violation hr]
  refine eq_of_rule_order (pairwise_shares.filter _) pairwise_shares ?_ ?_
  · exact (nodup_shares hn).sublist (List.filter_sublist.map _)
  · refine ((diagnostics_shares_perm d s x rs).filter _).trans ?_
    rw [hv]
    exact (diagnostics_shares_perm d s x _).symm

/-- The others have other names. -/
theorem name_ne_of_mem {front back : List Rule} (hn : ((front ++ r :: back).map (·.name)).Nodup) :
    ∀ r' ∈ front ++ back, r'.name ≠ r.name := by
  have hp : ((r :: (front ++ back)).map (·.name)).Nodup :=
    (List.perm_middle.map _).nodup_iff.mp hn
  intro r' hr' he
  exact (List.nodup_cons.mp hp).1 (List.mem_map.mpr ⟨r', hr', he⟩)

theorem filter_name_eq (hn : (rs.map (·.name)).Nodup) (hr : r ∈ rs) :
    (rs.filter fun r' => r'.name = r.name) = [r] := by
  obtain ⟨front, back, rfl⟩ := List.append_of_mem hr
  have hne := name_ne_of_mem hn
  have hf : front.filter (fun r' => decide (r'.name = r.name)) = [] :=
    List.filter_eq_nil_iff.mpr fun r' hr' => by simp [hne r' (List.mem_append_left _ hr')]
  have hb : back.filter (fun r' => decide (r'.name = r.name)) = [] :=
    List.filter_eq_nil_iff.mpr fun r' hr' => by simp [hne r' (List.mem_append_right _ hr')]
  simp [hf, hb]

theorem filter_name_ne {front back : List Rule}
    (hn : ((front ++ r :: back).map (·.name)).Nodup) :
    ((front ++ r :: back).filter fun r' => r'.name ≠ r.name) = front ++ back := by
  have hne : (front ++ back).filter (fun r' => decide (r'.name ≠ r.name)) = front ++ back :=
    List.filter_eq_self.mpr fun r' hr' => decide_eq_true (name_ne_of_mem hn r' hr')
  rw [List.filter_append] at hne ⊢
  rw [List.filter_cons_of_neg (by simp), hne]

/-- The diagnostics of one rule among those of all. -/
theorem filter_shares_name (hn : (rs.map (·.name)).Nodup) (hr : r ∈ rs) :
    ((shares d s x rs).diagnostics.filter fun y => y.rule = r.name) =
      (r.violation d s x).toList := by
  rw [filter_shares hn fun name => name = r.name, filter_name_eq hn hr]
  cases hv : r.violation d s x <;> simp [shares, share_eq, hv]

/-- The findings on a file tell of each rule by itself: one diagnostic of those that fail the file and
none of the others, in the order of the names, and one entry of those that failed, in the order of the
list. -/
structure Tells (d : Volume) (s : RunState) (x : Context) (rs : List Rule) (f : Findings) :
    Prop where
  failed : ∀ r ∈ rs, r.governs x.toPlace = true → ∀ message,
    ((r.check x).exec d s).1 = .ok (.fail message) → ∃ error, message = some error ∧
      (f.diagnostics.filter fun y => y.rule = r.name) = [⟨r.name, error, shownPath x⟩]
  silent : ∀ r ∈ rs, (r.governs x.toPlace = true → ∀ message,
    ((r.check x).exec d s).1 ≠ .ok (.fail message)) →
      (f.diagnostics.filter fun y => y.rule = r.name) = []
  named : ∀ y ∈ f.diagnostics, ∃ r ∈ rs, y.rule = r.name
  ordered : f.diagnostics.Pairwise fun a b => a.rule < b.rule
  errors : f.errors = rs.filterMap (complaint d s x)

theorem tells_shares (hn : (rs.map (·.name)).Nodup) (h : ∀ r ∈ rs, r.Regular d x) :
    Tells d s x rs (shares d s x rs) where
  failed := by
    intro r hr hg message hm
    cases message with
    | none => exact ((h r hr).message s hm).elim
    | some error =>
      refine ⟨error, rfl, ?_⟩
      simp [filter_shares_name hn hr, violation, hg, hm]
  silent := by
    intro r hr hs
    rw [filter_shares_name hn hr]
    cases hv : r.violation d s x with
    | none => rfl
    | some y =>
      unfold violation at hv
      split at hv
      · rename_i hg
        split at hv
        · rename_i error hm
          exact (hs hg _ hm).elim
        · cases hv
      · cases hv
  named := by
    intro y hy
    obtain ⟨r, hr, hv⟩ := mem_shares_diagnostics.mp hy
    exact ⟨r, hr, rule_of_verdict hv⟩
  ordered := lt_of_mem_shares hn
  errors := errors_shares d s x rs

end Rule

/-- The rules of some names are those of the names among all rules for a file. -/
theorem Registry.select_some (g : Registry) (p : Place) (names : List String) (pathOnly : Bool) :
    g.select p (some names) pathOnly =
      (g.select p none pathOnly).filter fun r => names.contains r.name := by
  unfold select
  rw [List.filter_filter]
  refine List.filter_congr fun r _ => ?_
  rw [Option.all_some, Option.all_none]
  cases names.contains r.name <;> cases r.governs p <;> rfl

theorem exec_dispatch_of_regular {g : Registry} {names : Option (List String)} {pathOnly : Bool}
    (h : ∀ r ∈ g.entries, r.Regular d x) : ((g.dispatch x names pathOnly).exec d s).1 =
      .ok (Rule.shares d s x (g.select x.toPlace names pathOnly)).diagnostics := by
  have hn : (g.select x.toPlace names pathOnly).findSome? (fun r => escape? (r.verdict d s x))
      = none :=
    List.findSome?_eq_none_iff.mpr fun r hr =>
      (h r (Registry.mem_entries_of_mem_select hr)).escape?_eq_none
  rw [exec_dispatch_fst fun r hr => (h r hr).steady, hn]

/-- Regular rules with names of their own are isolated from each other: the findings tell of each of
them by itself, they can be run in any order, a rule that is left out takes away its own entries only,
and the rules of some names find what they find among all. -/
theorem rules_isolated (d : Volume) (s : RunState) (x : Context) :
    (∀ rs : List Rule, (rs.map (·.name)).Nodup → (∀ r ∈ rs, r.Regular d x) →
      ∃ f, ((Rule.runAll x rs).exec d s).1 = .ok f ∧ Rule.Tells d s x rs f ∧
        (∀ rs', rs.Perm rs' → ∃ f', ((Rule.runAll x rs').exec d s).1 = .ok f' ∧
          f'.diagnostics = f.diagnostics ∧ f'.errors.Perm f.errors) ∧
        ∀ front r back, rs = front ++ r :: back →
          ∃ f', ((Rule.runAll x (front ++ back)).exec d s).1 = .ok f' ∧
            f'.diagnostics = (f.diagnostics.filter fun y => y.rule ≠ r.name) ∧
            ∃ before after, f'.errors = before ++ after ∧
              f.errors = before ++ (r.complaint d s x).toList ++ after) ∧
    ∀ g : Registry, g.Named → (∀ r ∈ g.entries, r.Regular d x) → ∀ pathOnly,
      ∃ all, ((g.dispatch x none pathOnly).exec d s).1 = .ok all ∧ ∀ names,
        ((g.dispatch x (some names) pathOnly).exec d s).1
          = .ok (all.filter fun y => names.contains y.rule) := by
  constructor
  · intro rs hn h
    refine ⟨_, Rule.exec_runAll_of_regular h, Rule.tells_shares hn h, ?_, ?_⟩
    · intro rs' hp
      have h' : ∀ r ∈ rs', r.Regular d x := fun r hr => h r (hp.mem_iff.mpr hr)
      refine ⟨_, Rule.exec_runAll_of_regular h', ?_, ?_⟩
      · exact (Rule.diagnostics_shares_eq_of_perm hn hp).symm
      · rw [Rule.errors_shares, Rule.errors_shares]
        exact (hp.filterMap _).symm
    · rintro front r back rfl
      have h' : ∀ r' ∈ front ++ back, r'.Regular d x := by
        intro r' hr'
        rcases List.mem_append.mp hr' with hr' | hr'
        · exact h r' (List.mem_append_left _ hr')
        · exact h r' (List.mem_append_right _ (List.mem_cons_of_mem _ hr'))
      refine ⟨_, Rule.exec_runAll_of_regular h', ?_, front.filterMap (Rule.complaint d s x),
        back.filterMap (Rule.complaint d s x), ?_, ?_⟩
      · rw [Rule.filter_shares hn fun name => name ≠ r.name, Rule.filter_name_ne hn]
      · rw [Rule.errors_shares, List.filterMap_append]
      · rw [Rule.errors_shares, List.filterMap_append, List.filterMap_cons]
        cases r.complaint d s x <;> simp
  · intro g hg h pathOnly
    refine ⟨_, exec_dispatch_of_regular h, fun names => ?_⟩
    rw [exec_dispatch_of_regular h, Registry.select_some,
      Rule.filter_shares (hg.select _ _ _) fun name => names.contains name]

/-- A rule that may not look at any file of the function area. -/
def deniedRule : Rule where
  name := "broken"
  area := "function"
  description := ""
  check _ := Run.fail (.custom .permission "permission denied")

/-- A function whose file name is of no class. -/
def unclassified : Context where
  directory := ⟨.root, ["p"]⟩
  file := "src/function/m/get.ts"
  conventions := {}
  workingDirectory := ⟨.root, []⟩
  content := ""

theorem regular_denied : ∀ r ∈ [deniedRule, Rule.functionFileName],
    r.Regular {} unclassified := by
  intro r hr
  simp only [List.mem_cons, List.not_mem_nil, or_false] at hr
  rcases hr with rfl | rfl
  · refine ⟨steady_fail _, fun s => by simp [deniedRule], fun s e he => Or.inr ?_⟩
    cases he
    rfl
  · have hx : ∀ s, ((Rule.functionFileName.check unclassified).exec {} s).1
        = .ok (.fail (some _)) := fun s => rfl
    exact ⟨steady_pure _, fun s => by simp [hx s], fun s e he => by simp [hx s] at he⟩

theorem rules_isolated_denied : ∃ f f',
    ((Rule.runAll unclassified [deniedRule, Rule.functionFileName]).exec {}
      (.fresh ⟨.root, ["p"]⟩ {})).1 = .ok f ∧
    (∃ error, (f.diagnostics.filter fun y => y.rule = "function-file-name") =
      [⟨"function-file-name", error, "src/function/m/get.ts"⟩]) ∧
    f.errors = ["broken: src/function/m/get.ts: permission denied"] ∧
    ((Rule.runAll unclassified [Rule.functionFileName]).exec {}
      (.fresh ⟨.root, ["p"]⟩ {})).1 = .ok f' ∧
    f'.diagnostics = (f.diagnostics.filter fun y => y.rule ≠ "broken") ∧
    ∃ all, ((Registry.dispatch ⟨[deniedRule, Rule.functionFileName]⟩ unclassified none false).exec
        {} (.fresh ⟨.root, ["p"]⟩ {})).1 = .ok all ∧
      ((Registry.dispatch ⟨[deniedRule, Rule.functionFileName]⟩ unclassified (some ["broken"])
        false).exec {} (.fresh ⟨.root, ["p"]⟩ {})).1
          = .ok (all.filter fun y => ["broken"].contains y.rule) := by
  have hn : ([deniedRule, Rule.functionFileName].map (·.name)).Nodup := by decide
  obtain ⟨hrun, hdispatch⟩ := rules_isolated {} (.fresh ⟨.root, ["p"]⟩ {}) unclassified
  obtain ⟨f, hf, htells, -, hremove⟩ := hrun _ hn regular_denied
  obtain ⟨f', hf', hdiagnostics, -⟩ := hremove [] deniedRule [Rule.functionFileName] rfl
  obtain ⟨all, hall, hnames⟩ := hdispatch ⟨[deniedRule, Rule.functionFileName]⟩ hn regular_denied
    false
  obtain ⟨error, -, herror⟩ := htells.failed Rule.functionFileName (by simp) (by decide) _ rfl
  exact ⟨f, f', hf, ⟨error, herror⟩, htells.errors, hf', hdiagnostics, all, hall, hnames _⟩

end ConventionLint
