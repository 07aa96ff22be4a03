import ConventionLint.Proofs.Registration

/-! The catalog that the checks of a session share is written once. A check is seen as a dialogue: it
looks at the disk, asks for the catalog, writes to the log and ends. Every question for the catalog then
has its place in the session, with the disk as it is at that time and the answer. -/
namespace ConventionLint

open Run

variable {α β : Type} {d : Volume} {s : RunState}

/-- What a check can do. -/
inductive Dialogue (α : Type) where
  | finish (result : Except Failure α)
  | record (entry : LogRecord) (rest : Dialogue α)
  | look (rest : Volume → Dialogue α)
  | ask (rest : Except Failure Catalog → Dialogue α)

namespace Dialogue

/-- What a dialogue leads to, and what it was told of the catalog. -/
def play (d : Volume) :
    Dialogue α → RunState → (Except Failure α × RunState) × List (Except Failure Catalog)
  | finish result, s => ((result, s), [])
  | record entry rest, s => rest.play d { s with log := s.log ++ [entry] }
  | look rest, s => (rest d).play d s
  | ask rest, s =>
    let (answer, s) := Run.catalog.exec d s
    let (final, answers) := (rest answer).play d s
    (final, answer :: answers)

def bind : Dialogue α → (α → Dialogue β) → Dialogue β
  | finish (.ok a), f => f a
  | finish (.error e), _ => finish (.error e)
  | record entry rest, f => record entry (rest.bind f)
  | look rest, f => look fun d => (rest d).bind f
  | ask rest, f => ask fun answer => (rest answer).bind f

/-- A dialogue whose failure is a result. -/
def attempt : Dialogue α → Dialogue (Except Failure α)
  | finish result => finish (.ok result)
  | record entry rest => record entry rest.attempt
  | look rest => look fun d => (rest d).attempt
  | ask rest => ask fun answer => (rest answer).attempt

theorem play_bind (p : Dialogue α) (f : α → Dialogue β) (s : RunState) :
    ((p.bind f).play d s).1 =
      match (p.play d s).1 with
      | (.ok a, t) => ((f a).play d t).1
      | (.error e, t) => (.error e, t) := by
  induction p generalizing s with
  | finish result => cases result <;> rfl
  | record entry rest ih => exact ih _
  | look rest ih => exact ih d s
  | ask rest ih => exact ih _ _

theorem play_attempt (p : Dialogue α) (s : RunState) :
    (p.attempt.play d s).1 = (.ok (p.play d s).1.1, (p.play d s).1.2) := by
  induction p generalizing s with
  | finish result => rfl
  | record entry rest ih => exact ih _
  | look rest ih => exact ih d s
  | ask rest ih => exact ih _ _

end Dialogue

/-! Runs that are dialogues. -/

/-- A run that goes like a dialogue, on every disk and from every state. -/
def Run.Speaks (r : Run α) (p : Dialogue α) : Prop := ∀ d s, r.exec d s = (p.play d s).1

def Run.Spoken (r : Run α) : Prop := ∃ p, r.Speaks p

def Rule.Spoken (r : Rule) : Prop := ∀ x, (r.check x).Spoken

namespace Run

theorem spoken_pure (a : α) : (pure a : Run α).Spoken := ⟨.finish (.ok a), fun _ _ => rfl⟩

theorem spoken_fail (e : Failure) : (fail e : Run α).Spoken := ⟨.finish (.error e), fun _ _ => rfl⟩

theorem spoken_read : (read : Run Volume).Spoken := ⟨.look fun d => .finish (.ok d), fun _ _ => rfl⟩

theorem spoken_catalog : catalog.Spoken := ⟨.ask .finish, fun _ _ => rfl⟩

theorem spoken_bind {r : Run α} {f : α → Run β} (hr : r.Spoken) (hf : ∀ a, (f a).Spoken) :
    (r >>= f).Spoken := by
  obtain ⟨p, hp⟩ := hr
  refine ⟨p.bind fun a => (hf a).choose, fun d s => ?_⟩
  rw [exec_bind, Dialogue.play_bind, ← hp]
  rcases r.exec d s with ⟨_ | a, t⟩
  · rfl
  · exact (hf a).choose_spec d t

theorem spoken_attempt {r : Run α} (hr : r.Spoken) : r.attempt.Spoken := by
  obtain ⟨p, hp⟩ := hr
  refine ⟨p.attempt, fun d s => ?_⟩
  rw [exec_attempt, Dialogue.play_attempt, ← hp]

/-- A run that looks at nothing only writes to the log. -/
theorem Plain.spoken {r : Run α} (h : r.Plain) : r.Spoken := by
  obtain ⟨a, log, he, -⟩ := h
  have hlog : ∀ log : List LogRecord, ∃ p : Dialogue α, ∀ d s,
      (p.play d s).1 = (a, { s with log := s.log ++ log }) := by
    intro log
    induction log with
    | nil => exact ⟨.finish a, fun d s => by simp [Dialogue.play]⟩
    | cons entry log ih =>
      obtain ⟨p, hp⟩ := ih
      refine ⟨.record entry p, fun d s => ?_⟩
      rw [Dialogue.play, hp]
      simp
  obtain ⟨p, hp⟩ := hlog log
  exact ⟨p, fun d s => by rw [he, hp]⟩

theorem compositional_spoken : Compositional fun _ r => r.Spoken where
  plain := Plain.spoken
  fail := spoken_fail
  read := spoken_read
  catalog := spoken_catalog
  bind := spoken_bind
  attempt := spoken_attempt

end Run

namespace Rule

variable {r : Rule} {x : Context}

theorem spoken_builtin (hr : r ∈ Registry.builtin.entries) : r.Spoken :=
  fun _ => compositional_spoken.check hr

theorem spoken_diagnose (h : r.Spoken) : (r.diagnose x).Spoken :=
  compositional_spoken.diagnose (h x)

theorem spoken_runAll {rs : List Rule} (h : ∀ r ∈ rs, r.Spoken) : (runAll x rs).Spoken :=
  compositional_spoken.runAll fun r hr => h r hr x

theorem spoken_outcomes {rs : List Rule} (h : ∀ r ∈ rs, r.Spoken) : (outcomes x rs).Spoken := by
  unfold outcomes
  induction rs with
  | nil => exact spoken_pure _
  | cons r rs ih =>
    rw [List.mapM_cons]
    have hr := compositional_spoken.evaluate (h r (List.mem_cons_self ..) x)
    refine spoken_bind (spoken_bind (spoken_attempt hr) fun _ => spoken_pure _) fun _ => ?_
    exact spoken_bind (ih fun r' hr' => h r' (List.mem_cons_of_mem _ hr')) fun _ => spoken_pure _

end Rule

/-! Questions for the catalog, one after the other. -/

/-- A question for the catalog: the disk as it is then, and the answer. -/
structure Access where
  disk : Volume
  answer : Except Failure Catalog

/-- What a scan of a disk gives for a project. -/
def scanOf (root : Path) (c : Conventions) (d : Volume) : Except Failure Catalog :=
  (findDatabases d root c).1.mapError .scan

/-- How the kept catalog goes along with the answers: without one each answer is a scan, and the first
that succeeds is kept. -/
inductive Written (root : Path) (c : Conventions) :
    Option Catalog → List Access → Option Catalog → Prop where
  | done (kept : Option Catalog) : Written root c kept [] kept
  | failed {d : Volume} {e : Failure} {l : List Access} {kept : Option Catalog} :
      scanOf root c d = .error e → Written root c none l kept →
        Written root c none (⟨d, .error e⟩ :: l) kept
  | first {d : Volume} {k : Catalog} {l : List Access} {kept : Option Catalog} :
      scanOf root c d = .ok k → Written root c (some k) l kept →
        Written root c none (⟨d, .ok k⟩ :: l) kept
  | again {d : Volume} {k : Catalog} {l : List Access} {kept : Option Catalog} :
      Written root c (some k) l kept → Written root c (some k) (⟨d, .ok k⟩ :: l) kept

namespace Written

variable {root : Path} {c : Conventions} {kept last : Option Catalog} {k : Catalog} {l : List Access}

theorem append {mid : Option Catalog} {l' : List Access} (h : Written root c kept l mid)
    (h' : Written root c mid l' last) : Written root c kept (l ++ l') last := by
  induction h with
  | done => exact h'
  | failed hd _ ih => exact .failed hd (ih h')
  | first hd _ ih => exact .first hd (ih h')
  | again _ ih => exact .again (ih h')

/-- Once kept, a catalog is every answer and stays. -/
theorem of_some (h : Written root c (some k) l last) : (∀ a ∈ l, a.answer = .ok k) ∧ last = some k := by
  obtain ⟨kept, hkept⟩ : ∃ kept, kept = some k := ⟨_, rfl⟩
  rw [← hkept] at h
  induction h with
  | done => exact ⟨by simp, hkept⟩
  | failed => cases hkept
  | first => cases hkept
  | again _ ih =>
    cases hkept
    exact ⟨List.forall_mem_cons.mpr ⟨rfl, (ih rfl).1⟩, (ih rfl).2⟩

/-- Without one, the answers are scans up to the first that succeeds. -/
theorem of_none (h : Written root c none l last) :
    ((∀ a ∈ l, ∃ e, a.answer = .error e ∧ scanOf root c a.disk = .error e) ∧ last = none) ∨
    ∃ early a late k, l = early ++ a :: late ∧
      (∀ b ∈ early, ∃ e, b.answer = .error e ∧ scanOf root c b.disk = .error e) ∧
      (a.answer = .ok k ∧ scanOf root c a.disk = .ok k) ∧ (∀ b ∈ late, b.answer = .ok k) ∧
      last = some k := by
  obtain ⟨kept, hkept⟩ : ∃ kept : Option Catalog, kept = none := ⟨_, rfl⟩
  rw [← hkept] at h
  induction h with
  | done => exact Or.inl ⟨by simp, hkept⟩
  | @failed d e l _ hd _ ih =>
    rcases ih rfl with ⟨hl, hlast⟩ | ⟨early, a, late, k, rfl, hearly, ha, hlate, hlast⟩
    · exact Or.inl ⟨List.forall_mem_cons.mpr ⟨⟨e, rfl, hd⟩, hl⟩, hlast⟩
    · exact Or.inr ⟨⟨d, .error e⟩ :: early, a, late, k, rfl,
        List.forall_mem_cons.mpr ⟨⟨e, rfl, hd⟩, hearly⟩, ha, hlate, hlast⟩
  | @first d k l _ hd hl _ =>
    exact Or.inr ⟨[], ⟨d, .ok k⟩, l, k, rfl, by simp, ⟨rfl, hd⟩, hl.of_some.1, hl.of_some.2⟩
  | again => cases hkept

end Written

namespace Dialogue

/-- What is kept for a project: for whom does not change, and the catalog is written once. -/
theorem written_play (p : Dialogue α) (d : Volume) (s : RunState) :
    (p.play d s).1.2.resources.root = s.resources.root ∧
    (p.play d s).1.2.resources.conventions = s.resources.conventions ∧
    Written s.resources.root s.resources.conventions s.resources.catalog
      ((p.play d s).2.map (⟨d, ·⟩)) (p.play d s).1.2.resources.catalog := by
  induction p generalizing s with
  | finish result => exact ⟨rfl, rfl, .done _⟩
  | record entry rest ih => exact ih _
  | look rest ih => exact ih d s
  | ask rest ih =>
    rw [play]
    dsimp only
    cases hk : s.resources.catalog with
    | some k =>
      rw [exec_catalog_known hk]
      obtain ⟨hroot, hc, hw⟩ := ih (.ok k) s
      rw [hk] at hw
      exact ⟨hroot, hc, .again hw⟩
    | none =>
      rcases hf : findDatabases d s.resources.root s.resources.conventions with ⟨e | k, log⟩
      · have hscan : scanOf s.resources.root s.resources.conventions d = .error (.scan e) := by
          rw [scanOf, hf, mapError_error]
        rw [exec_catalog_failed hk hf]
        obtain ⟨hroot, hc, hw⟩ := ih (.error (.scan e)) { s with log := s.log ++ log }
        rw [hk] at hw
        exact ⟨hroot, hc, .failed hscan hw⟩
      · have hscan : scanOf s.resources.root s.resources.conventions d = .ok k := by
          rw [scanOf, hf, mapError_ok]
        rw [exec_catalog_found hk hf]
        obtain ⟨hroot, hc, hw⟩ := ih (.ok k)
          { s with resources := { s.resources with catalog := some k }, log := s.log ++ log }
        exact ⟨hroot, hc, .first hscan hw⟩

end Dialogue

/-! Sessions. -/

namespace Registry

variable {g : Registry} {r : Rule}

theorem mem_of_get {name : String} (h : g.get name = .ok r) : r ∈ g.entries := by
  unfold get at h
  split at h
  · rename_i r' hr'
    cases h
    exact List.mem_of_find?_eq_some hr'
  · cases h

theorem mem_of_named {p : Place} {names : Option (List String)} {rules : List Rule}
    (h : g.named p names = .ok rules) (hr : r ∈ rules) : r ∈ g.entries := by
  cases names with
  | none =>
    cases h
    exact mem_entries_of_mem_select hr
  | some names =>
    change names.mapM g.get = .ok rules at h
    induction names generalizing rules with
    | nil =>
      cases h
      cases hr
    | cons name names ih =>
      rw [List.mapM_cons] at h
      obtain ⟨r', hr', h⟩ := Conventions.bind_eq_ok h
      obtain ⟨rest, hrest, h⟩ := Conventions.bind_eq_ok h
      cases h
      rcases List.mem_cons.mp hr with rfl | hr
      · exact mem_of_get hr'
      · exact ih hr hrest

end Registry

/-- A step that leaves what the checks share in its place, and adds a rule only if it is a dialogue. -/
def Step.Shares : Step → Prop
  | .renew => False
  | .register r _ => r.Spoken
  | _ => True

namespace Session

variable {s : Session} {x : Step} {xs : List Step} {l : List Access}

/-- What a step does with what the checks share. -/
def work (s : Session) : Step → Run Unit
  | .catalog => Run.catalog >>= fun _ => pure ()
  | .dispatch file content names pathOnly =>
    let x := s.context file content
    Rule.runAll x (s.registry.select x.toPlace names pathOnly) >>= fun _ => pure ()
  | .evaluate file content names =>
    let x := s.context file content
    match s.registry.named x.toPlace names with
    | .error _ => pure ()
    | .ok rules => Rule.outcomes x rules >>= fun _ => pure ()
  | .check name file content =>
    match s.registry.get name with
    | .error _ => pure ()
    | .ok r => r.diagnose (s.context file content) >>= fun _ => pure ()
  | _ => pure ()

/-- The state in which a step starts. -/
def runState (s : Session) : RunState := { resources := s.resources, log := s.log }

theorem resources_step (hx : x ≠ .renew) :
    (s.step x).2.resources = ((s.work x).exec s.disk s.runState).2.resources := by
  cases x with
  | renew => exact (hx rfl).elim
  | write | remove | ruleNames | lint => rfl
  | configure | register | rule =>
    rw [step]
    split <;> rfl
  | catalog | dispatch =>
    rw [work, exec_map_snd]
    rfl
  | evaluate file content names =>
    rw [step, work]
    cases s.registry.named (s.context file content).toPlace names with
    | error e => rfl
    | ok rules =>
      dsimp only
      rw [exec_map_snd]
      rfl
  | check name file content =>
    rw [step, work]
    cases s.registry.get name with
    | error e => rfl
    | ok r =>
      dsimp only
      rw [exec_map_snd]
      rfl

theorem spoken_work (hg : ∀ r ∈ s.registry.entries, r.Spoken) (x : Step) : (s.work x).Spoken := by
  cases x with
  | catalog => exact spoken_bind spoken_catalog fun _ => spoken_pure _
  | dispatch =>
    refine spoken_bind (Rule.spoken_runAll fun r hr => ?_) fun _ => spoken_pure _
    exact hg r (Registry.mem_entries_of_mem_select hr)
  | evaluate =>
    rw [work]
    split
    · exact spoken_pure _
    · rename_i rules hrules
      refine spoken_bind (Rule.spoken_outcomes fun r hr => ?_) fun _ => spoken_pure _
      exact hg r (Registry.mem_of_named hrules hr)
  | check =>
    rw [work]
    split
    · exact spoken_pure _
    · rename_i r hr
      exact spoken_bind (Rule.spoken_diagnose (hg r (Registry.mem_of_get hr))) fun _ => spoken_pure _
  | _ => exact spoken_pure _

theorem spoken_step (hg : ∀ r ∈ s.registry.entries, r.Spoken) (hx : x.Shares) :
    ∀ r ∈ (s.step x).2.registry.entries, r.Spoken := by
  intro r hr
  rw [entries_step, List.mem_append, Option.mem_toList] at hr
  rcases hr with hr | hr
  · exact hg r hr
  · have hoffer : x.offer? = some r := by
      cases ha : (s.step x).1 with
      | error e =>
        rw [ha] at hr
        cases hr
      | ok a =>
        rw [ha] at hr
        exact hr
    cases x with
    | register rule targets =>
      rw [Step.offer?, Option.map_eq_some_iff] at hoffer
      obtain ⟨t, -, rfl⟩ := hoffer
      exact hx
    | _ => cases hoffer

/-- The questions for the catalog in the steps of a session, if its checks are dialogues. -/
inductive Accesses : Session → List Step → List Access → Prop where
  | nil (s : Session) : Accesses s [] []
  | cons {s : Session} {x : Step} {p : Dialogue Unit} {xs : List Step} {l : List Access} :
      (s.work x).Speaks p → Accesses (s.step x).2 xs l →
        Accesses s (x :: xs) ((p.play s.disk s.runState).2.map (⟨s.disk, ·⟩) ++ l)

theorem exists_accesses (hg : ∀ r ∈ s.registry.entries, r.Spoken) (hx : ∀ x ∈ xs, x.Shares) :
    ∃ l, s.Accesses xs l := by
  induction xs generalizing s with
  | nil => exact ⟨[], .nil s⟩
  | cons x xs ih =>
    rw [List.forall_mem_cons] at hx
    obtain ⟨p, hp⟩ := spoken_work hg x
    obtain ⟨l, hl⟩ := ih (spoken_step hg hx.1) hx.2
    exact ⟨_, .cons hp hl⟩

theorem written_accesses (hl : s.Accesses xs l) (hx : Step.renew ∉ xs) :
    (s.steps xs).2.resources.root = s.resources.root ∧
    (s.steps xs).2.resources.conventions = s.resources.conventions ∧
    Written s.resources.root s.resources.conventions s.resources.catalog l
      (s.steps xs).2.resources.catalog := by
  induction hl with
  | nil s => exact ⟨rfl, rfl, .done _⟩
  | @cons s x p xs l hp _ ih =>
    rw [List.mem_cons, not_or] at hx
    have hstep := resources_step (s := s) (Ne.symm hx.1)
    rw [hp] at hstep
    obtain ⟨hroot, hc, hw⟩ := p.written_play s.disk s.runState
    rw [← hstep] at hroot hc hw
    obtain ⟨hroot', hc', hw'⟩ := ih hx.2
    rw [hroot, hc] at hw'
    exact ⟨hroot'.trans hroot, hc'.trans hc, hw.append hw'⟩

/-- In a session that goes on with what its checks share, whatever happens to files, conventions and
rules: as long as no catalog is kept, each question is a scan of the disk as it is then and fails if the
scan does. The first that succeeds is kept, and is the answer to every later question. All scans are made
with the root and the conventions that were given at first. -/
theorem catalog_written_once (s : Session) (xs : List Step)
    (hg : ∀ r ∈ s.registry.entries, r.Spoken) (hx : ∀ x ∈ xs, x.Shares) :
    (∃ l, s.Accesses xs l) ∧ ∀ l, s.Accesses xs l →
      let scan := scanOf s.resources.root s.resources.conventions
      let last := (s.steps xs).2.resources
      last.root = s.resources.root ∧ last.conventions = s.resources.conventions ∧
      (∀ k, s.resources.catalog = some k → (∀ a ∈ l, a.answer = .ok k) ∧ last.catalog = some k) ∧
      (s.resources.catalog = none →
        ((∀ a ∈ l, ∃ e, a.answer = .error e ∧ scan a.disk = .error e) ∧ last.catalog = none) ∨
        ∃ early a late k, l = early ++ a :: late ∧
          (∀ b ∈ early, ∃ e, b.answer = .error e ∧ scan b.disk = .error e) ∧
          (a.answer = .ok k ∧ scan a.disk = .ok k) ∧ (∀ b ∈ late, b.answer = .ok k) ∧
          last.catalog = some k) := by
  refine ⟨exists_accesses hg hx, ?_⟩
  intro l hl scan last
  have hrenew : Step.renew ∉ xs := fun h => hx _ h
  obtain ⟨hroot, hc, hw⟩ := written_accesses hl hrenew
  refine ⟨hroot, hc, ?_, ?_⟩
  · intro k hk
    rw [hk] at hw
    exact hw.of_some
  · intro hk
    rw [hk] at hw
    exact hw.of_none

/-- A session whose checks share a project with a connection marker that starts at the root, which no
scan of a database area can use. -/
def rooted : Session where
  disk :=
    { entries := [(["p"], .directory), (["p", "src"], .directory),
        (["p", "src", "database"], .directory)] }
  conventions := {}
  resources :=
    { root := ⟨.root, ["p"]⟩
      conventions := { setting := fun s => if s = .connectionMarker then "/conn." else s.standard } }

/-- The database area goes, and comes back. -/
def rootedSteps : List Step :=
  [.catalog, .remove ["p", "src", "database"], .catalog, .write ["p", "src", "database"] .directory,
   .catalog]

theorem speaks_catalog : (Run.catalog >>= fun _ => pure ()).Speaks
    (.ask fun answer => .finish (answer.map fun _ => ())) := by
  intro d s
  rw [exec_bind, Dialogue.play]
  rcases Run.catalog.exec d s with ⟨_ | k, t⟩ <;> rfl

theorem accesses_rooted : ∃ l, rooted.Accesses rootedSteps l ∧
    (l.map fun a => a.answer.toBool) = [false, true, true] ∧
    (l.map fun a => (scanOf rooted.resources.root rooted.resources.conventions a.disk).toBool)
      = [false, true, false] := by
  have hquiet : (pure () : Run Unit).Speaks (.finish (.ok ())) := fun _ _ => rfl
  exact ⟨_, .cons speaks_catalog (.cons hquiet (.cons speaks_catalog (.cons hquiet
    (.cons speaks_catalog (.nil _))))), by decide +kernel, by decide +kernel⟩

/-- A scan fails, the next one finds no databases, and this stays the answer when scans fail again. -/
theorem catalog_written_once_rooted :
    (∀ r ∈ rooted.registry.entries, r.Spoken) ∧ (∀ x ∈ rootedSteps, x.Shares) ∧
    ∃ l, rooted.Accesses rootedSteps l ∧
      (l.map fun a => a.answer.toBool) = [false, true, true] ∧
      (l.map fun a => (scanOf rooted.resources.root rooted.resources.conventions a.disk).toBool)
        = [false, true, false] ∧
      ∃ early a late k, l = early ++ a :: late ∧ (∀ b ∈ late, b.answer = .ok k) ∧
        (rooted.steps rootedSteps).2.resources.catalog = some k := by
  have hg : ∀ r ∈ rooted.registry.entries, r.Spoken := fun r hr => Rule.spoken_builtin hr
  have hx : ∀ x ∈ rootedSteps, x.Shares := by
    simp [rootedSteps, Step.Shares]
  obtain ⟨l, hl, hanswers, hscans⟩ := accesses_rooted
  refine ⟨hg, hx, l, hl, hanswers, hscans, ?_⟩
  obtain ⟨-, -, -, hnone⟩ := (catalog_written_once rooted rootedSteps hg hx).2 l hl
  rcases hnone rfl with ⟨hall, -⟩ | ⟨early, a, late, k, hsplit, -, -, hlate, hlast⟩
  · have htrue : true ∈ l.map fun a => a.answer.toBool := by simp [hanswers]
    obtain ⟨a, ha, hok⟩ := List.mem_map.mp htrue
    obtain ⟨e, he, -⟩ := hall a ha
    rw [he] at hok
    cases hok
  · exact ⟨early, a, late, k, hsplit, hlate, hlast⟩

end Session

end ConventionLint
