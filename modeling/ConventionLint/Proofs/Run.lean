import ConventionLint.Run

/-! What runs leave behind. Runs that ask for the catalog may share one state, since its result is
fixed by the disk and the project. -/
namespace ConventionLint

namespace Run

variable {α β ε : Type} {d : Volume} {s : RunState}

@[simp] theorem exec_pure (a : α) : (pure a : Run α).exec d s = (.ok a, s) := rfl

theorem exec_bind (r : Run α) (f : α → Run β) :
    (r >>= f).exec d s =
      match r.exec d s with
      | (.ok a, t) => (f a).exec d t
      | (.error e, t) => (.error e, t) := by
  change ((r >>= f) d).run s = _
  unfold exec
  simp only [ReaderT.bind, bind, ExceptT.run, ExceptT.bind, ExceptT.mk, StateT.bind,
    ExceptT.bindCont]
  rcases r d s with ⟨_ | a, t⟩ <;> rfl

theorem exec_bind_ok {r : Run α} {a : α} {t : RunState} (h : r.exec d s = (.ok a, t))
    (f : α → Run β) : (r >>= f).exec d s = (f a).exec d t := by
  rw [exec_bind, h]

theorem exec_bind_error {r : Run α} {e : Failure} {t : RunState}
    (h : r.exec d s = (.error e, t)) (f : α → Run β) :
    (r >>= f).exec d s = (.error e, t) := by
  rw [exec_bind, h]

@[simp] theorem exec_read : (read : Run Volume).exec d s = (.ok d, s) := rfl

@[simp] theorem exec_record (level : Level) (source : LogSource) (text : String) :
    (record level source text).exec d s
      = (.ok (), { s with log := s.log ++ [⟨level, source, text⟩] }) := rfl

@[simp] theorem exec_fail (e : Failure) : (fail e : Run α).exec d s = (.error e, s) := rfl

@[simp] theorem mapError_ok (failure : ε → Failure) (a : α) :
    (Except.ok a).mapError failure = .ok a := rfl

@[simp] theorem mapError_error (failure : ε → Failure) (e : ε) :
    (Except.error e : Except ε α).mapError failure = .error (failure e) := rfl

@[simp] theorem exec_ofExcept (failure : ε → Failure) (x : Except ε α) :
    (ofExcept failure x).exec d s = (x.mapError failure, s) := by
  cases x <;> rfl

theorem fail_bind (e : Failure) (f : α → Run β) : fail e >>= f = fail e := rfl

theorem ofExcept_ok_bind (failure : ε → Failure) (a : α) (f : α → Run β) :
    ofExcept failure (.ok a) >>= f = f a := rfl

theorem ofExcept_error_bind (failure : ε → Failure) (e : ε) (f : α → Run β) :
    ofExcept failure (.error e) >>= f = fail (failure e) := rfl

@[simp] theorem exec_attempt (r : Run α) :
    r.attempt.exec d s = (.ok (r.exec d s).1, (r.exec d s).2) := by
  unfold attempt exec
  simp only [tryCatch, tryCatchThe, MonadExceptOf.tryCatch, ReaderT.bind, bind, ExceptT.bind,
    ExceptT.mk, ExceptT.run, ExceptT.tryCatch, StateT.bind, ExceptT.bindCont]
  rcases r d s with ⟨_ | a, t⟩ <;> rfl

theorem exec_catalog_known {k : Catalog} (h : s.resources.catalog = some k) :
    catalog.exec d s = (.ok k, s) := by
  unfold catalog
  rw [exec_bind_ok (t := s) (a := s) rfl]
  simp [h]

theorem exec_catalog_found {k : Catalog} {log : List LogRecord} (h : s.resources.catalog = none)
    (hf : findDatabases d s.resources.root s.resources.conventions = (.ok k, log)) :
    catalog.exec d s
      = (.ok k, { s with resources := { s.resources with catalog := some k }
                         log := s.log ++ log }) := by
  unfold catalog
  rw [exec_bind_ok (t := s) (a := s) rfl]
  simp only [h]
  rw [exec_bind_ok exec_read, hf]
  rfl

theorem exec_catalog_failed {e : ScanError} {log : List LogRecord}
    (h : s.resources.catalog = none)
    (hf : findDatabases d s.resources.root s.resources.conventions = (.error e, log)) :
    catalog.exec d s = (.error (.scan e), { s with log := s.log ++ log }) := by
  unfold catalog
  rw [exec_bind_ok (t := s) (a := s) rfl]
  simp only [h]
  rw [exec_bind_ok exec_read, hf]
  rfl

/-- A run that looks at no file and at nothing that is shared, and fails only for content that is
no module. -/
def Plain (r : Run α) : Prop :=
  ∃ a log, (∀ d s, r.exec d s = (a, { s with log := s.log ++ log })) ∧
    ∀ e, a = .error e → e.isParse = true

theorem plain_pure (a : α) : (pure a : Run α).Plain :=
  ⟨.ok a, [], by simp, by simp⟩

theorem plain_record (level : Level) (source : LogSource) (text : String) :
    (record level source text).Plain :=
  ⟨.ok (), [⟨level, source, text⟩], by simp, by simp⟩

theorem plain_ofExcept {failure : ε → Failure} {x : Except ε α}
    (h : ∀ e, x = .error e → (failure e).isParse = true) : (ofExcept failure x).Plain := by
  refine ⟨x.mapError failure, [], by simp, ?_⟩
  cases x with
  | ok a => rintro _ ⟨⟩
  | error e =>
    rintro _ ⟨⟩
    exact h e rfl

theorem plain_bind {r : Run α} {f : α → Run β} (hr : r.Plain) (hf : ∀ a, (f a).Plain) :
    (r >>= f).Plain := by
  obtain ⟨_ | a, log, he, hp⟩ := hr
  · rename_i e
    refine ⟨.error e, log, fun d s => exec_bind_error (he d s) f, ?_⟩
    rintro _ ⟨⟩
    exact hp e rfl
  · obtain ⟨b, more, hb, hq⟩ := hf a
    refine ⟨b, log ++ more, fun d s => ?_, hq⟩
    rw [exec_bind_ok (he d s), hb, List.append_assoc]

end Run

/-- The catalog that a state leads to: the one that is kept there, else the one that is found on the
disk. -/
def RunState.known (s : RunState) (d : Volume) : Except ScanError Catalog :=
  match s.resources.catalog with
  | some k => .ok k
  | none => (findDatabases d s.resources.root s.resources.conventions).1

/-- The state of a run at its start, with nothing known and nothing logged. -/
def RunState.fresh (root : Path) (c : Conventions) : RunState := { resources := ⟨root, c, none⟩ }

namespace Run

variable {α β : Type} {d : Volume} {s t : RunState}

/-- A run whose result depends on the disk and the catalog only, and that keeps the catalog and what
is logged. -/
structure Steady (r : Run α) (d : Volume) : Prop where
  result : ∀ {s t : RunState}, s.known d = t.known d → (r.exec d s).1 = (r.exec d t).1
  known : ∀ s, (r.exec d s).2.known d = s.known d
  log : ∀ s, s.log <+: (r.exec d s).2.log

theorem Plain.steady {r : Run α} (h : r.Plain) : r.Steady d := by
  obtain ⟨a, log, he, _⟩ := h
  refine ⟨fun _ => ?_, fun s => ?_, fun s => ?_⟩
  · simp [he]
  · rw [he]
    rfl
  · simp [he]

theorem steady_pure (a : α) : (pure a : Run α).Steady d := (plain_pure a).steady

theorem steady_record (level : Level) (source : LogSource) (text : String) :
    (record level source text).Steady d :=
  (plain_record level source text).steady

theorem steady_fail (e : Failure) : (fail e : Run α).Steady d := by
  refine ⟨fun _ => rfl, fun s => rfl, fun s => ?_⟩
  simp

theorem steady_read : (read : Run Volume).Steady d := by
  refine ⟨fun _ => rfl, fun s => rfl, fun s => ?_⟩
  simp

/-- The catalog may be asked for once or many times. -/
theorem exec_catalog (d : Volume) (s : RunState) :
    (catalog.exec d s).1 = (s.known d).mapError .scan ∧
      (catalog.exec d s).2.known d = s.known d ∧ s.log <+: (catalog.exec d s).2.log := by
  cases hk : s.resources.catalog with
  | some k => simp [exec_catalog_known hk, RunState.known, hk]
  | none =>
    rcases hf : findDatabases d s.resources.root s.resources.conventions with ⟨_ | k, log⟩
    · simp [exec_catalog_failed hk hf, RunState.known, hk, hf]
    · simp [exec_catalog_found hk hf, RunState.known, hk, hf]

theorem steady_catalog : catalog.Steady d where
  result h := by rw [(exec_catalog d _).1, (exec_catalog d _).1, h]
  known s := (exec_catalog d s).2.1
  log s := (exec_catalog d s).2.2

/-- In a run of two parts the second one can start where the first did. -/
theorem exec_bind_fst {r : Run α} {f : α → Run β} (hr : r.Steady d) (hf : ∀ a, (f a).Steady d) :
    ((r >>= f).exec d s).1 =
      match (r.exec d s).1 with
      | .ok a => ((f a).exec d s).1
      | .error e => .error e := by
  have hk := hr.known s
  rcases hx : r.exec d s with ⟨_ | a, t⟩ <;> rw [hx] at hk
  · rw [exec_bind_error hx]
  · rw [exec_bind_ok hx]
    exact (hf a).result hk

theorem steady_bind {r : Run α} {f : α → Run β} (hr : r.Steady d) (hf : ∀ a, (f a).Steady d) :
    (r >>= f).Steady d := by
  refine ⟨fun {s t} h => ?_, fun s => ?_, fun s => ?_⟩
  · rw [exec_bind_fst hr hf, exec_bind_fst hr hf, hr.result h]
    split
    · exact (hf _).result h
    · rfl
  · have hk := hr.known s
    rcases hx : r.exec d s with ⟨_ | a, t⟩ <;> rw [hx] at hk
    · rw [exec_bind_error hx]
      exact hk
    · rw [exec_bind_ok hx]
      exact ((hf a).known t).trans hk
  · have hl := hr.log s
    rcases hx : r.exec d s with ⟨_ | a, t⟩ <;> rw [hx] at hl
    · rw [exec_bind_error hx]
      exact hl
    · rw [exec_bind_ok hx]
      exact hl.trans ((hf a).log t)

theorem steady_attempt {r : Run α} (hr : r.Steady d) : r.attempt.Steady d := by
  refine ⟨fun h => ?_, fun s => ?_, fun s => ?_⟩
  · rw [exec_attempt, exec_attempt, hr.result h]
  · rw [exec_attempt]
    exact hr.known s
  · rw [exec_attempt]
    exact hr.log s

/-- A property that holds of what a check can do, and of all that is put together from runs that have
it. -/
structure Compositional (P : (α : Type) → Run α → Prop) : Prop where
  plain : ∀ {α : Type} {r : Run α}, r.Plain → P α r
  fail : ∀ {α : Type} (e : Failure), P α (fail e)
  read : P Volume read
  catalog : P Catalog catalog
  bind : ∀ {α β : Type} {r : Run α} {f : α → Run β}, P α r → (∀ a, P β (f a)) → P β (r >>= f)
  attempt : ∀ {α : Type} {r : Run α}, P α r → P (Except Failure α) r.attempt

theorem compositional_steady : Compositional fun _ r => r.Steady d where
  plain := Plain.steady
  fail := steady_fail
  read := steady_read
  catalog := steady_catalog
  bind := steady_bind
  attempt := steady_attempt

section

variable {P : (α : Type) → Run α → Prop}

theorem Compositional.pure (hP : Compositional P) (a : α) : P α (pure a) := hP.plain (plain_pure a)

theorem Compositional.record (hP : Compositional P) (level : Level) (source : LogSource)
    (text : String) : P Unit (record level source text) :=
  hP.plain (plain_record level source text)

theorem Compositional.ofExcept {ε : Type} (hP : Compositional P) (failure : ε → Failure)
    (x : Except ε α) : P α (ofExcept failure x) := by
  cases x with
  | ok a => exact hP.pure a
  | error e => exact hP.fail (failure e)

end

theorem exec_map_snd (r : Run α) (f : α → β) :
    ((r >>= fun a => pure (f a)).exec d s).2 = (r.exec d s).2 := by
  rcases h : r.exec d s with ⟨_ | a, t⟩
  · rw [exec_bind_error h]
  · rw [exec_bind_ok h]
    rfl

/-- A result that is put into another form at the end. -/
theorem exec_map_fst (r : Run α) (f : α → β) :
    ((r >>= fun a => pure (f a)).exec d s).1 = (r.exec d s).1.map f := by
  rcases h : r.exec d s with ⟨_ | a, t⟩
  · rw [exec_bind_error h]
    rfl
  · rw [exec_bind_ok h]
    rfl

end Run

end ConventionLint
