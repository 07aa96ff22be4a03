import ConventionLint.Proofs.Paths
import ConventionLint.Proofs.Result
import ConventionLint.Proofs.Visit

/-! When a rule fails in a way that ends the run: only the scan for databases does, and only for a
connection marker that starts at the root. -/
namespace ConventionLint

open Run

variable {d : Volume} {root : Path} {c : Conventions}

namespace Glob

theorem step_ne_absolute (s : String) : step s ≠ .error .absolute := by
  unfold step
  split
  · nofun
  · split
    · nofun
    · split
      · nofun
      · split <;> nofun

theorem mapM_step_ne_absolute (parts : List String) : parts.mapM step ≠ .error .absolute := by
  induction parts with
  | nil => nofun
  | cons s parts ih =>
    rw [List.mapM_cons, ne_eq, bind_eq_error]
    rintro (hs | ⟨a, -, h⟩)
    · exact step_ne_absolute s hs
    · obtain hs | ⟨as, -, h⟩ := bind_eq_error.mp h
      · exact ih hs
      · cases h

/-- A pattern that starts at the root is refused as such. -/
theorem files_eq_absolute_iff {directory : List String} {pattern : String} :
    files d directory pattern = .error (.pattern .absolute) ↔
      (Path.parse pattern).isAbsolute = true := by
  have hs : steps pattern = .error .absolute ↔ (Path.parse pattern).isAbsolute = true := by
    unfold steps
    dsimp only
    split
    · rename_i ha
      simp [ha]
    · rename_i ha
      refine ⟨fun h => ?_, fun h => (ha h).elim⟩
      obtain hm | ⟨ss, -, h⟩ := bind_eq_error.mp h
      · exact (mapM_step_ne_absolute _ hm).elim
      · cases h
  rw [← hs, files]
  cases steps pattern with
  | error e => simp
  | ok ss =>
    dsimp only
    cases overlong? d ss [⟨[], directory⟩] <;> simp

end Glob

namespace Scan

/-- There are databases to be found, but the pattern for their modules starts at the root. -/
def Blocked (d : Volume) (root : Path) (c : Conventions) : Prop :=
  d.isDirectory (directory root c) = .ok true ∧ (c.setting .connectionMarker).toList.head? = some '/'

instance (d : Volume) (root : Path) (c : Conventions) : Decidable (Blocked d root c) :=
  decidable_of_iff ((d.isDirectory (directory root c)).toOption = some true ∧
      (c.setting .connectionMarker).toList.head? = some '/')
    (and_congr_left fun _ => by cases d.isDirectory (directory root c) <;> simp [Except.toOption])

theorem not_blocked_standard (d : Volume) (root : Path) : ¬ Blocked d root {} :=
  fun h => absurd h.2 (by decide)

theorem connectionModules_eq_absolute_iff (d : Volume) (root : Path) (c : Conventions) :
    connectionModules d root c = .error (.pattern .absolute) ↔
      (c.setting .connectionMarker).toList.head? = some '/' := by
  have ha : (Path.parse (c.setting .connectionMarker ++ "*")).isAbsolute = true ↔
      (c.setting .connectionMarker).toList.head? = some '/' := by
    rw [Path.isAbsolute_parse, String.toList_append]
    cases (c.setting .connectionMarker).toList <;> simp
  have hf : Glob.files d (d.resolve (directory root c)) (c.setting .connectionMarker ++ "*")
      = .error (.pattern .absolute) ↔ _ := Glob.files_eq_absolute_iff
  unfold connectionModules
  rw [← ha, ← hf]
  dsimp only
  rcases Glob.files d (d.resolve (directory root c)) (c.setting .connectionMarker ++ "*")
    with (_ | _) | found <;> simp [searchError]

theorem relativeTo_ne_pattern (root p : Path) (e : Glob.PatternError) :
    relativeTo root p ≠ .error (.pattern e) := by
  unfold relativeTo
  split
  · split <;> nofun
  · nofun

theorem collect_ne_pattern (d : Volume) (root : Path) (c : Conventions) (ps : List Path)
    (e : Glob.PatternError) : (collect d root c ps).1 ≠ .error (.pattern e) := by
  induction ps with
  | nil => nofun
  | cons p ps ih =>
    intro h
    unfold collect at h
    cases hp : relativeTo root p with
    | error f =>
      rw [hp] at h
      cases h
      exact relativeTo_ne_pattern root p e hp
    | ok path =>
      rw [hp] at h
      rcases hm : collect d root c ps with ⟨_ | found, log⟩ <;> rw [hm] at h ih
      · cases h
        exact ih rfl
      · cases h

end Scan

open Scan in
/-- The scan for databases is refused exactly if it is blocked. -/
theorem findDatabases_eq_absolute_iff :
    (findDatabases d root c).1 = .error (.pattern .absolute) ↔ Blocked d root c := by
  unfold findDatabases Blocked
  rw [← connectionModules_eq_absolute_iff d root]
  dsimp only
  rcases hd : d.isDirectory (directory root c) with e | _ | _
  · simp
  · simp
  · cases hm : connectionModules d root c with
    | error e => simp
    | ok modules =>
      have hp := collect_ne_pattern d root c modules .absolute
      simp only [reduceCtorEq, and_false, iff_false]
      rcases hl : collect d root c modules with ⟨_ | found, log⟩ <;> rw [hl] at hp <;>
        dsimp only at hp ⊢
      · simpa using hp
      · split <;> nofun

namespace Rule

variable {s : RunState} {x : Context} {r : Rule} {e : Failure}

/-- The rule on portals fails only if there is a portal's database and the catalog cannot be had. -/
theorem exec_functionPortalDatabase_error_iff :
    ((functionPortalDatabase.check x).exec d s).1 = .error e ↔
      (portalVariable? x.conventions x.content).isSome = true ∧
        ∃ f, s.known d = .error f ∧ e = .scan f := by
  unfold functionPortalDatabase
  simp only
  cases portalVariable? x.conventions x.content with
  | none => simp
  | some name =>
    have hk := (exec_catalog d s).1
    dsimp only
    rcases hx : catalog.exec d s with ⟨_ | k, t⟩ <;> rw [hx] at hk <;>
      cases hf : s.known d <;> rw [hf] at hk <;> cases hk
    · rw [exec_bind_error hx]
      simp [eq_comm]
    · rw [exec_bind_ok hx]
      split
      · simp
      · split <;> simp

theorem exec_functionTestImportsTestingDb_error
    (h : ((functionTestImportsTestingDb.check x).exec d s).1 = .error e) :
    e.isParse = true ∨ ∃ f, e = .read f := by
  obtain ⟨judge, hj, he⟩ := functionTestImportsTestingDb_eq x
  rw [he, exec_bind_ok exec_read] at h
  cases ht : d.readText? (tested x) with
  | error f =>
    rw [ht] at h
    cases h
    exact Or.inr ⟨f, rfl⟩
  | ok text =>
    obtain ⟨a, log, hx, hp⟩ := hj text
    rw [ht] at h
    change ((judge text).exec d s).1 = .error e at h
    rw [hx] at h
    exact Or.inl (hp e h)

/-- Only the rule on portals can fail in a way that ends a run. -/
theorem escape?_verdict_iff (hc : x.conventions.Consistent) (hr : r ∈ Registry.builtin.entries) :
    escape? (r.verdict d s x) = some e ↔
      r = functionPortalDatabase ∧ functionPortalDatabase.governs x.toPlace = true ∧
        (portalVariable? x.conventions x.content).isSome = true ∧
        s.known d = .error (.pattern .absolute) ∧ e = .scan (.pattern .absolute) := by
  rw [escape?_eq_some_iff, verdict_eq_error_iff]
  constructor
  · rintro ⟨⟨hg, he, hp⟩, hs⟩
    obtain ⟨a, log, hx, ha⟩ | rfl | rfl := plain_check hc hr
    · rw [hx] at he
      rw [ha e he] at hp
      cases hp
    · obtain ⟨hv, f, hk, rfl⟩ := exec_functionPortalDatabase_error_iff.mp he
      have hf : f = .pattern .absolute := by
        rcases f with (_ | _) | _ | _ | _
        · rfl
        all_goals cases hs
      subst hf
      exact ⟨rfl, hg, hv, hk, rfl⟩
    · obtain h | ⟨f, rfl⟩ := exec_functionTestImportsTestingDb_error he
      · rw [h] at hp
        cases hp
      · cases hs
  · rintro ⟨rfl, hg, hv, hk, rfl⟩
    exact ⟨⟨hg, exec_functionPortalDatabase_error_iff.mpr ⟨hv, _, hk, rfl⟩, rfl⟩, rfl⟩

/-- A rule for the sources or for the tests of the function area. -/
theorem governs_function_iff {b : Bool} (ha : r.area = "function")
    (ht : r.targets = if b then .test else .source) :
    r.governs x.toPlace = true ↔ x.area? = some .function ∧ x.isTest = b := by
  have hf : ∀ a : Area, a.name = "function" ↔ a = .function := by
    intro a
    cases a <;> decide
  have hg : ¬ "function" = generalArea := by decide
  cases b <;> simp [governs, ha, ht, hg, hf]

/-- The rules for a file end the run exactly if it is a function whose portal declares a database and
the catalog cannot be scanned. -/
theorem escapes_select_iff {pathOnly : Bool} (hc : x.conventions.Consistent) :
    ((Registry.builtin.select x.toPlace none pathOnly).findSome? fun r =>
        escape? (r.verdict d s x)) = some e ↔
      pathOnly = false ∧ x.area? = some .function ∧ x.isTest = false ∧
        (portalVariable? x.conventions x.content).isSome = true ∧
        s.known d = .error (.pattern .absolute) ∧ e = .scan (.pattern .absolute) := by
  have hmp : ∀ {e}, ((Registry.builtin.select x.toPlace none pathOnly).findSome? fun r =>
      escape? (r.verdict d s x)) = some e → pathOnly = false ∧ x.area? = some .function ∧
        x.isTest = false ∧ (portalVariable? x.conventions x.content).isSome = true ∧
        s.known d = .error (.pattern .absolute) ∧ e = .scan (.pattern .absolute) := by
    intro e he
    obtain ⟨r, hr, he⟩ := List.exists_of_findSome?_eq_some he
    obtain ⟨hr, -, hp⟩ := Registry.mem_select.mp hr
    obtain ⟨rfl, hg, hv, hk, rfl⟩ := (escape?_verdict_iff hc hr).mp he
    obtain ⟨ha, ht⟩ := (governs_function_iff (b := false) rfl rfl).mp hg
    cases pathOnly with
    | true => cases hp rfl
    | false => exact ⟨rfl, ha, ht, hv, hk, rfl⟩
  refine ⟨hmp, ?_⟩
  rintro ⟨rfl, ha, ht, hv, hk, rfl⟩
  have hg : functionPortalDatabase.governs x.toPlace = true :=
    (governs_function_iff rfl rfl).mpr ⟨ha, ht⟩
  have hr : functionPortalDatabase ∈ Registry.builtin.entries := by simp [Registry.builtin]
  have he := (escape?_verdict_iff hc hr).mpr ⟨rfl, hg, hv, hk, rfl⟩
  have hm : functionPortalDatabase ∈ Registry.builtin.select x.toPlace none false :=
    Registry.mem_select.mpr ⟨hr, hg, by simp⟩
  have hs : ((Registry.builtin.select x.toPlace none false).findSome? fun r =>
      escape? (r.verdict d s x)).isSome = true :=
    List.findSome?_isSome_iff.mpr ⟨_, hm, by simp [he]⟩
  obtain ⟨e, hf⟩ := Option.isSome_iff_exists.mp hs
  obtain ⟨-, -, -, -, -, rfl⟩ := hmp hf
  exact hf

end Rule

theorem known_eq_absolute_iff {s : RunState} : s.known d = .error (.pattern .absolute) ↔
    s.resources.catalog = none ∧ Scan.Blocked d s.resources.root s.resources.conventions := by
  unfold RunState.known
  cases s.resources.catalog with
  | some k => simp
  | none => simp [findDatabases_eq_absolute_iff]

namespace Lint

variable {pathOnly : Bool} {file : Path}

/-- A function whose portal declares a database, so that the databases are asked for. -/
def NeedsDatabases (root : Path) (c : Conventions) (d : Volume) (file : Path) : Prop :=
  ∃ text, d.readText file = .ok text ∧ (contextOf root c d file text).area? = some .function ∧
    (contextOf root c d file text).isTest = false ∧ (Rule.portalVariable? c text).isSome = true

/-- A run ends at a file exactly if the databases are asked for there and the scan is blocked. -/
theorem escapeOn_builtin_iff (hc : c.Consistent) {e : Failure} :
    escapeOn .builtin root c pathOnly d file = some e ↔
      pathOnly = false ∧ Scan.Blocked d root c ∧ NeedsDatabases root c d file ∧
        e = .scan (.pattern .absolute) := by
  have hk : (RunState.fresh root c).known d = .error (.pattern .absolute) ↔
      Scan.Blocked d root c := findDatabases_eq_absolute_iff
  unfold escapeOn
  constructor
  · intro h
    split at h
    · cases h
    · rename_i text ht
      obtain ⟨rfl, ha, hx, hv, hb, rfl⟩ := (Rule.escapes_select_iff hc).mp h
      exact ⟨rfl, hk.mp hb, ⟨text, ht, ha, hx, hv⟩, rfl⟩
  · rintro ⟨rfl, hb, ⟨text, ht, ha, hx, hv⟩, rfl⟩
    have ht : content false d file = .ok text := ht
    rw [ht]
    exact (Rule.escapes_select_iff hc).mpr ⟨rfl, ha, hx, hv, hk.mpr hb, rfl⟩

end Lint

variable {q : LintRequest} {start finish : Data.Number}

/-- A request whose run asks for databases that cannot be scanned. -/
def LintRequest.Stops (q : LintRequest) (d : Volume) (c : Conventions) : Prop :=
  q.pathOnly = false ∧ Scan.Blocked d (d.absolute q.root) c ∧
    ∃ file ∈ q.paths d, Lint.NeedsDatabases (d.absolute q.root) c d file

theorem escapes_iff_stops (hc : c.Consistent) :
    (∃ e, (q.paths d).findSome? (Lint.escapeOn .builtin (d.absolute q.root) c q.pathOnly d)
      = some e) ↔ q.Stops d c := by
  constructor
  · rintro ⟨e, he⟩
    obtain ⟨file, hf, he⟩ := List.exists_of_findSome?_eq_some he
    obtain ⟨hp, hb, hn, -⟩ := (Lint.escapeOn_builtin_iff hc).mp he
    exact ⟨hp, hb, file, hf, hn⟩
  · rintro ⟨hp, hb, file, hf, hn⟩
    have he := (Lint.escapeOn_builtin_iff hc).mpr ⟨hp, hb, hn, rfl⟩
    exact Option.isSome_iff_exists.mp
      (List.findSome?_isSome_iff.mpr ⟨file, hf, Option.isSome_of_eq_some he⟩)

theorem lint_of_stops (hv : q.isValid = true)
    (hc : Conventions.ofProject d (d.absolute q.root) q.config = .ok c) (hq : q.Stops d c) :
    (lint .builtin d q start finish).1 = .error (.failure (.scan (.pattern .absolute))) := by
  have hk := Conventions.ofProject_consistent hc
  obtain ⟨e, he⟩ := (escapes_iff_stops hk).mpr hq
  obtain ⟨file, -, hf⟩ := List.exists_of_findSome?_eq_some he
  rw [lint_eq (steady_builtin hk) hv hc, he, ((Lint.escapeOn_builtin_iff hk).mp hf).2.2.2]

theorem lint_of_not_stops (hv : q.isValid = true)
    (hc : Conventions.ofProject d (d.absolute q.root) q.config = .ok c) (hq : ¬ q.Stops d c) :
    (lint .builtin d q start finish).1 = .ok (Lint.report .builtin start finish
      (Lint.gathered .builtin (d.absolute q.root) c q.pathOnly d (q.paths d))) := by
  have hk := Conventions.ofProject_consistent hc
  rw [lint_eq (steady_builtin hk) hv hc]
  cases he : (q.paths d).findSome? (Lint.escapeOn .builtin (d.absolute q.root) c q.pathOnly d) with
  | none => rfl
  | some e => exact (hq ((escapes_iff_stops hk).mp ⟨e, he⟩)).elim

end ConventionLint
