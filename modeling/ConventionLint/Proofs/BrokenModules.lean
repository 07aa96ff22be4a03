import Mathlib.Data.List.Basic
import ConventionLint.Proofs.Matching

/-! Connection modules that cannot be read or parsed. Each of them is skipped with one warning, and the
catalog is that of the others. -/
namespace ConventionLint

open Text

variable {d d' : Disk} {root : Path} {c : Conventions} {parts : List String} {bytes : List UInt8}

/-- Of two lists of paths in order, the one with one more path has it somewhere in between. -/
theorem Path.exists_insert {l l' : List (List String)} {x : List String}
    (h : l.Pairwise fun p q => le p q = true ∧ p ≠ q)
    (h' : l'.Pairwise fun p q => le p q = true ∧ p ≠ q)
    (hm : ∀ q, q ∈ l' ↔ q ∈ l ∨ q = x) (hx : x ∉ l) :
    ∃ front back, l' = front ++ x :: back ∧ l = front ++ back := by
  obtain ⟨front, back, rfl⟩ := List.append_of_mem ((hm x).mpr (Or.inr rfl))
  have hs : (front ++ back).Pairwise fun p q => le p q = true ∧ p ≠ q :=
    h'.sublist (List.Sublist.append_left (List.sublist_cons_self x back) front)
  have hmiddle : ∀ q, q ∈ front ++ x :: back ↔ q ∈ front ++ back ∨ q = x := by
    intro q
    simp only [List.mem_append, List.mem_cons]
    tauto
  have hne : x ∉ front ++ back := by
    have hn : (front ++ x :: back).Nodup := h'.imp fun hpq => hpq.2
    exact (List.nodup_cons.mp (List.perm_middle.nodup_iff.mp hn)).1
  refine ⟨front, back, rfl, eq_of_sorted (h.imp And.left) (hs.imp And.left) (h.imp And.right)
    (hs.imp And.right) fun q => ?_⟩
  constructor
  · intro hq
    rcases (hmiddle q).mp ((hm q).mpr (Or.inl hq)) with hf | rfl
    · exact hf
    · exact (hx hq).elim
  · intro hq
    rcases (hm q).mp ((hmiddle q).mpr (Or.inl hq)) with hl | rfl
    · exact hl
    · exact (hne hq).elim

theorem flatMap_middle {α β : Type} {f f' : α → List β} {front back : List α}
    (h : ∀ a ∈ front ++ back, f' a = f a) (x : α) :
    (front ++ x :: back).flatMap f' = front.flatMap f ++ (f' x ++ back.flatMap f) := by
  rw [List.flatMap_append, List.flatMap_cons,
    List.flatMap_congr fun a ha => h a (List.mem_append_left _ ha),
    List.flatMap_congr fun a ha => h a (List.mem_append_right _ ha)]

namespace Volume

variable {v : Volume} {text : String} {here place : List String} {p : Path} {e : FileError}

/-- A way that leads somewhere has no name that is too long. -/
theorem short_of_walkFrom (h : v.walkFrom text here parts = .ok place) :
    ∀ s ∈ parts, isTooLong s = false := by
  induction parts generalizing here with
  | nil => simp
  | cons part parts ih =>
    rw [walkFrom] at h
    split at h
    · cases h
    · cases h
    · split at h
      · cases h
      · rename_i hshort
        exact List.forall_mem_cons.mpr ⟨Bool.eq_false_of_not_eq_true hshort, ih h⟩

theorem exists_of_walkFrom (h : v.walkFrom text here parts = .error e) :
    e.isAbsence = true ∨ e = .nameTooLong text ∧ ∃ s ∈ parts, isTooLong s = true := by
  induction parts generalizing here with
  | nil => cases h
  | cons part parts ih =>
    rw [walkFrom] at h
    split at h
    · cases h
      exact Or.inl rfl
    · cases h
      exact Or.inl rfl
    · split at h
      · rename_i hlong
        cases h
        exact Or.inr ⟨rfl, part, List.mem_cons_self .., hlong⟩
      · refine (ih h).imp_right (And.imp_right ?_)
        rintro ⟨s, hs, hlong⟩
        exact ⟨s, List.mem_cons_of_mem _ hs, hlong⟩

/-- It cannot be told whether a path leads to a directory only if a name is too long. -/
theorem exists_of_isDirectory (h : v.isDirectory p = .error e) :
    e = .nameTooLong p.toString ∧ ∃ s ∈ (v.workingDirectory.join p).parts, isTooLong s = true := by
  unfold isDirectory leadsTo at h
  cases hf : v.find p with
  | ok x => simp [hf] at h
  | error e' =>
    rw [hf] at h
    dsimp only at h
    split at h
    · cases h
    rename_i ha
    cases h
    rw [find_eq] at hf
    split at hf
    · split at hf
      · rename_i hw
        cases hf
        exact (exists_of_walkFrom hw).resolve_left ha
      · split at hf <;> cases hf
        exact (ha rfl).elim
    · cases hf
      exact (ha rfl).elim

end Volume

namespace Scan

/-- A path below the directory of the database area. -/
def moduleAt (root : Path) (c : Conventions) (parts : List String) : Path :=
  (directory root c).below parts

/-- The place that such a path names. -/
def placeAt (d : Disk) (root : Path) (c : Conventions) (parts : List String) : List String :=
  Path.resolve d.workingDirectory (directory root c) ++ parts

/-- Such a path as seen from the project. -/
def shownAt (c : Conventions) (parts : List String) : String :=
  Path.render ((area c).parts ++ parts)

/-- A path that the pattern for connection modules matches, with the extension of a module and
outside of foreign modules. -/
structure Includes (root : Path) (c : Conventions) (parts : List String) : Prop where
  matched : ∃ ts, Glob.steps (pattern c) = .ok ts ∧ Glob.Matches ts parts
  extension : (Module.dialects.lookup (moduleAt root c parts).suffix).isSome = true
  outside : "node_modules" ∉ (moduleAt root c parts).parts

/-- A free place in the database area, for a file that is included once it is there. -/
structure Admits (d : Disk) (root : Path) (c : Conventions) (parts : List String)
    (bytes : List UInt8) : Prop where
  included : Includes root c parts
  free : d.IsFree (placeAt d root c parts)
  reached :
    (d.write (placeAt d root c parts) (.file bytes)).isDirectory (directory root c) = .ok true

/-- Bytes that are no text, or a text that is no module. -/
def IsBroken (path : String) (bytes : List UInt8) : Prop :=
  ∀ cs, decode bytes = .ok cs → ∃ e, Module.parse (String.ofList (unifyLines cs)) path = .error e

instance (path : String) (bytes : List UInt8) : Decidable (IsBroken path bytes) :=
  decidable_of_iff (∀ cs ∈ (decode bytes).toOption,
      (Module.parse (String.ofList (unifyLines cs)) path).toOption.isNone = true) <| by
    unfold IsBroken
    refine forall_congr' fun cs => imp_congr ?_ ⟨exists_error_of_isNone, ?_⟩
    · cases decode bytes <;> simp [Except.toOption]
    · rintro ⟨e, he⟩
      rw [he]
      rfl

/-- The module at a path, if it can be read and parsed. -/
def parsed? (d : Disk) (root : Path) (c : Conventions) (parts : List String) : Option Module :=
  (d.readText (moduleAt root c parts)).toOption.bind fun text =>
    (Module.parse text (shownAt c parts)).toOption

/-- The exported variables of a module whose names end with the suffix. -/
def declared (d : Disk) (root : Path) (c : Conventions) (parts : List String) :
    List DatabaseVariable :=
  match parsed? d root c parts with
  | none => []
  | some m =>
    (m.exportedVariables.filter fun n => (c.setting .databaseSuffix).toList <:+ n.toList).map fun n =>
      ⟨n, shownAt c parts, testingFactoryName n (c.setting .databaseSuffix)⟩

def warnings (log : List LogRecord) : List LogRecord := log.filter fun r => r.level = .warning

/-- The warnings about a module. -/
def complaints (d : Disk) (root : Path) (c : Conventions) (parts : List String) : List LogRecord :=
  (variablesOf c (shownAt c parts) (d.readText (moduleAt root c parts))).2

/-- The databases of a project are those that its connection modules declare, in the order of their
paths. -/
structure Scanned (d : Disk) (root : Path) (c : Conventions) (modules : List (List String)) :
    Prop where
  sorted : modules.Pairwise fun p q => Path.le p q = true ∧ p ≠ q
  mem : ∀ parts, parts ∈ modules ↔ Includes root c parts ∧
    ∃ bytes, d.get? (placeAt d root c parts) = some (.file bytes)
  outcome : (findDatabases d root c).1
    = (Catalog.ofList (modules.flatMap (declared d root c))).1.mapError .collision
  log : warnings (findDatabases d root c).2 = modules.flatMap (complaints d root c)
    ++ warnings (Catalog.ofList (modules.flatMap (declared d root c))).2

theorem variablesOf_fst (d : Disk) (root : Path) (c : Conventions) (parts : List String) :
    (variablesOf c (shownAt c parts) (d.readText (moduleAt root c parts))).1
      = declared d root c parts := by
  unfold variablesOf declared parsed?
  cases d.readText (moduleAt root c parts) with
  | error e => rfl
  | ok text =>
    cases hm : Module.parse text (shownAt c parts) with
    | error e => simp [hm, Except.toOption]
    | ok m =>
      have hsuffix : ∀ n : String, (before? (c.setting .databaseSuffix).toList n.toList).isSome
          = decide ((c.setting .databaseSuffix).toList <:+ n.toList) := by
        intro n
        rw [Bool.eq_iff_iff, before?_isSome_iff, decide_eq_true_iff]
      simp [hm, hsuffix, Except.toOption]

theorem complaints_congr
    (h : d'.readText (moduleAt root c parts) = d.readText (moduleAt root c parts)) :
    complaints d' root c parts = complaints d root c parts := by
  rw [complaints, h, complaints]

theorem declared_congr
    (h : d'.readText (moduleAt root c parts) = d.readText (moduleAt root c parts)) :
    declared d' root c parts = declared d root c parts := by
  rw [← variablesOf_fst, h, variablesOf_fst]

theorem warnings_append (front back : List LogRecord) :
    warnings (front ++ back) = warnings front ++ warnings back :=
  List.filter_append ..

theorem warnings_complaints (d : Disk) (root : Path) (c : Conventions)
    (modules : List (List String)) :
    warnings (modules.flatMap (complaints d root c)) = modules.flatMap (complaints d root c) := by
  induction modules with
  | nil => rfl
  | cons parts modules ih =>
    have hone : warnings (complaints d root c parts) = complaints d root c parts := by
      unfold complaints variablesOf
      split
      · rfl
      · split <;> rfl
    rw [List.flatMap_cons, warnings_append, hone, ih]

theorem collect_map (hrel : (area c).isAbsolute = false) (modules : List (List String)) :
    collect d root c (modules.map (moduleAt root c)) =
      (.ok (modules.flatMap (declared d root c)), modules.flatMap (complaints d root c)) := by
  induction modules with
  | nil => rfl
  | cons parts modules ih =>
    have hp : relativeTo root (moduleAt root c parts) = .ok (shownAt c parts) := by
      have hanchor : (area c).anchor = .relative := not_not.mp (of_decide_eq_false hrel)
      rw [moduleAt, directory_eq_below hanchor, ← Path.below_append]
      exact relativeTo_below root _
    rw [List.map_cons, collect, hp]
    dsimp only
    rw [ih, List.flatMap_cons, List.flatMap_cons, ← variablesOf_fst]
    rfl

/-- What a scan gives once its modules are known. -/
theorem findDatabases_of_modules (hrel : (area c).isAbsolute = false)
    (hd : d.isDirectory (directory root c) = .ok true) {modules : List (List String)}
    (hm : connectionModules d root c = .ok (modules.map (moduleAt root c))) :
    (findDatabases d root c).1
        = (Catalog.ofList (modules.flatMap (declared d root c))).1.mapError .collision ∧
      warnings (findDatabases d root c).2 = modules.flatMap (complaints d root c)
        ++ warnings (Catalog.ofList (modules.flatMap (declared d root c))).2 := by
  unfold findDatabases
  dsimp only
  rw [hd, hm]
  dsimp only
  rw [collect_map hrel]
  dsimp only
  rcases Catalog.ofList (modules.flatMap (declared d root c)) with ⟨_ | k, more⟩
  · exact ⟨rfl, by rw [warnings_append, warnings_complaints]⟩
  · refine ⟨rfl, ?_⟩
    rw [warnings_append, warnings_append, warnings_complaints]
    exact List.append_nil _

/-- Whether a path is that of a module, outside of foreign modules. -/
def isCandidate (p : Path) : Bool :=
  (Module.dialects.lookup p.suffix).isSome && !p.parts.contains "node_modules"

/-- Which of the files that were found may declare databases. -/
theorem connectionModules_of_files {found : List (List String)}
    (hf : Glob.files d (d.resolve (directory root c)) (pattern c) = .ok found) :
    connectionModules d root c
      = .ok ((found.filter (isCandidate ∘ moduleAt root c)).map (moduleAt root c)) := by
  unfold pattern at hf
  unfold connectionModules
  dsimp only
  rw [hf, ← List.filter_map]
  rfl

theorem Includes.ne_nil (h : Includes root c parts) : parts ≠ [] := by
  obtain ⟨ts, hts, hm⟩ := h.matched
  unfold Glob.steps at hts
  dsimp only at hts
  split at hts
  · cases hts
  · obtain ⟨us, -, hts⟩ := Conventions.bind_eq_ok hts
    cases hts
    exact hm.ne_nil

/-- A module lies in the directory of the database area. -/
theorem Includes.get?_area (h : Includes root c parts) (htree : d.IsTree) {e : Entry}
    (he : d.get? (placeAt d root c parts) = some e) :
    d.get? (placeAt d root c []) = some .directory := by
  rw [placeAt, List.append_nil]
  exact htree.get?_front he h.ne_nil

/-- A name that is too long, in the path to the database area or in the pattern. -/
def IsOverlong (d : Disk) (root : Path) (c : Conventions) (ts : List Glob.Step) (s : String) : Prop :=
  isTooLong s = true ∧ (s ∈ (d.workingDirectory.join (directory root c)).parts ∨ .name s ∈ ts)

/-- A search gives files, or it asks for a name that is too long. -/
theorem connectionModules_of_steps (d : Disk) (root : Path) {ts : List Glob.Step}
    (hsteps : Glob.steps (pattern c) = .ok ts) :
    (∃ found, Glob.files d (d.resolve (directory root c)) (pattern c) = .ok found) ∨
      ∃ path s, connectionModules d root c = .error (.file (.nameTooLong path)) ∧
        IsOverlong d root c ts s := by
  cases ho : Glob.overlong? d ts [⟨[], d.resolve (directory root c)⟩] with
  | none => exact Or.inl ⟨_, Glob.files_eq_ok_iff.mpr ⟨ts, hsteps, ho, rfl⟩⟩
  | some path =>
    obtain ⟨s, hs, hlong⟩ := Glob.exists_name_of_overlong? ho
    refine Or.inr ⟨(moduleAt root c path).toString, s, ?_, hlong, Or.inr hs⟩
    have hf : Glob.files d (d.resolve (directory root c)) (pattern c) = .error (.nameTooLong path) := by
      unfold Glob.files
      rw [hsteps]
      dsimp only
      rw [ho]
    exact connectionModules_error hf

/-- A scan of a tree, for a pattern that does not go up: it asks for a name that is too long, or the
databases are those of the modules. The directory of the database area is where its path leads, or
there is nothing. -/
theorem exists_scanned (htree : d.IsTree) (hrel : (area c).isAbsolute = false)
    (hup : ".." ∉ (Path.parse (pattern c)).parts)
    {ts : List Glob.Step} (hsteps : Glob.steps (pattern c) = .ok ts)
    (harea : d.isDirectory (directory root c) = .ok false → d.get? (placeAt d root c []) = none) :
    (∃ modules, Scanned d root c modules) ∨
      ∃ path s, findDatabases d root c = (.error (.file (.nameTooLong path)), []) ∧
        IsOverlong d root c ts s := by
  rcases hd : d.isDirectory (directory root c) with e | _ | _
  · obtain ⟨rfl, s, hs, hlong⟩ := Volume.exists_of_isDirectory hd
    refine Or.inr ⟨(directory root c).toString, s, ?_, hlong, Or.inl hs⟩
    unfold findDatabases
    dsimp only
    rw [hd]
  · -- nothing is found, and there is nothing to find: a module would lie in that directory
    refine Or.inl ⟨[], List.Pairwise.nil, ?_, ?_, ?_⟩
    · intro parts
      refine iff_of_false List.not_mem_nil ?_
      rintro ⟨hin, bytes, hfile⟩
      cases (harea hd).symm.trans (hin.get?_area htree hfile)
    · rw [findDatabases_fst, hd]
      rfl
    · unfold findDatabases
      dsimp only
      rw [hd]
      rfl
  · obtain ⟨found, hf⟩ | ⟨path, s, hm, hs⟩ := connectionModules_of_steps d root hsteps
    · have hmodules := connectionModules_of_files hf
      obtain ⟨houtcome, hlog⟩ := findDatabases_of_modules hrel hd hmodules
      refine Or.inl ⟨_, (Glob.pairwise_files hf).sublist List.filter_sublist, ?_, houtcome, hlog⟩
      intro parts
      rw [List.mem_filter, Glob.mem_files_iff htree (Volume.get?_of_isDirectory hd) hf hsteps
        (Glob.ne_up_of_steps hsteps hup), Function.comp_apply, isCandidate, Bool.and_eq_true,
        Bool.not_eq_true', ← Bool.not_eq_true, List.contains_iff_mem, Disk.resolve_eq]
      constructor
      · rintro ⟨⟨hm, hfile⟩, hext, hout⟩
        exact ⟨⟨⟨ts, hsteps, hm⟩, hext, hout⟩, hfile⟩
      · rintro ⟨⟨⟨us, hus, hm⟩, hext, hout⟩, hfile⟩
        cases hsteps.symm.trans hus
        exact ⟨⟨hm, hfile⟩, hext, hout⟩
    · refine Or.inr ⟨path, s, ?_, hs⟩
      unfold findDatabases
      dsimp only
      rw [hd, hm]

/-- A broken file declares nothing, and there is one warning about it. -/
theorem variablesOf_broken {path : String} {p : Path} (hb : IsBroken path bytes)
    (hp : d.get? (Path.resolve d.workingDirectory p) = some (.file bytes)) :
    ∃ w, variablesOf c path (d.readText p) = ([], [w]) := by
  cases hf : d.find p with
  | error e =>
    -- a name on the way may be too long: the file is there, and cannot be read
    rw [Volume.readText_of_error hf]
    exact ⟨_, rfl⟩
  | ok x =>
    rw [← Disk.resolve_eq] at hp
    obtain rfl := Option.some.inj ((Volume.of_find hf).2.symm.trans hp)
    rw [Disk.readText_of_file hf]
    cases hd : decode bytes with
    | error e => exact ⟨_, rfl⟩
    | ok cs =>
      obtain ⟨e, he⟩ := hb cs hd
      unfold variablesOf
      dsimp only
      rw [he]
      exact ⟨_, rfl⟩

/-- A module that was there is read as before. -/
theorem Scanned.readText_write {modules : List (List String)} (h : Scanned d root c modules)
    (htree : d.IsTree)
    (hd : d.isDirectory (directory root c) = .ok true)
    {place : List String} {e : Entry} (hfree : d.IsFree place) (hp : parts ∈ modules) :
    (d.write place e).readText (moduleAt root c parts) = d.readText (moduleAt root c parts) := by
  obtain ⟨-, bytes, hfile⟩ := (h.mem parts).mp hp
  rw [placeAt, ← Disk.resolve_eq] at hfile
  exact Disk.readText_within hfree.within_write rfl (htree.find_below_ne_missing hd hfile)

/-- Nothing is too long where a module can be put. -/
theorem Admits.not_isOverlong (h : Admits d root c parts bytes) {ts : List Glob.Step}
    (hts : Glob.steps (pattern c) = .ok ts) (s : String) : ¬ IsOverlong d root c ts s := by
  rintro ⟨hlong, hs | hs⟩
  · have hfind := Volume.isDirectory_eq_true_iff.mp h.reached
    exact Bool.false_ne_true ((Volume.short_of_walkFrom (Volume.of_find hfind).1 s hs).symm.trans hlong)
  · obtain ⟨us, hus, hm⟩ := h.included.matched
    cases hts.symm.trans hus
    have hshort := hm.isTooLong_eq_false
      (fun s hs => h.free.short s (List.mem_append_right _ hs)) hs
    exact Bool.false_ne_true (hshort.symm.trans hlong)

/-- Where there are modules, the path to the database area leads to a directory. -/
theorem Scanned.isDirectory {modules : List (List String)} (h : Scanned d root c modules)
    (htree : d.IsTree)
    (harea : d.isDirectory (directory root c) = .ok false → d.get? (placeAt d root c []) = none)
    (hshort : ∀ ts s, Glob.steps (pattern c) = .ok ts → ¬ IsOverlong d root c ts s)
    (hp : parts ∈ modules) : d.isDirectory (directory root c) = .ok true := by
  obtain ⟨hin, bytes, hfile⟩ := (h.mem parts).mp hp
  obtain ⟨ts, hts, -⟩ := hin.matched
  rcases hd : d.isDirectory (directory root c) with e | _ | _
  · obtain ⟨-, s, hs, hlong⟩ := Volume.exists_of_isDirectory hd
    exact (hshort ts s hts ⟨hlong, Or.inl hs⟩).elim
  · cases (harea hd).symm.trans (hin.get?_area htree hfile)
  · rfl

/-- The modules are those that were there and the new one. -/
theorem Scanned.mem_write {modules modules' : List (List String)} (h : Scanned d root c modules)
    (hnew : Admits d root c parts bytes)
    (h' : Scanned (d.write (placeAt d root c parts) (.file bytes)) root c modules')
    (q : List String) : q ∈ modules' ↔ q ∈ modules ∨ q = parts := by
  have hplace : placeAt (d.write (placeAt d root c parts) (.file bytes)) root c q
      = placeAt d root c q := rfl
  have hcancel : placeAt d root c q = placeAt d root c parts ↔ q = parts := List.append_right_inj _
  rw [h'.mem, h.mem, hplace]
  simp only [hnew.free.get?_write_file, hcancel]
  constructor
  · rintro ⟨hin, bytes', hfile | ⟨hq, -⟩⟩
    · exact Or.inl ⟨hin, bytes', hfile⟩
    · exact Or.inr hq
  · rintro (⟨hin, bytes', hfile⟩ | rfl)
    · exact ⟨hin, bytes', Or.inl hfile⟩
    · exact ⟨hnew.included, bytes, Or.inr ⟨rfl, rfl⟩⟩

/-- The new module declares nothing, and there is one warning about it. -/
theorem Admits.broken (h : Admits d root c parts bytes) (hb : IsBroken (shownAt c parts) bytes) :
    declared (d.write (placeAt d root c parts) (.file bytes)) root c parts = [] ∧
      ∃ w, complaints (d.write (placeAt d root c parts) (.file bytes)) root c parts = [w] := by
  have hnames : ∀ s ∈ parts, Path.IsName s :=
    fun s hs => h.free.names s (List.mem_append_right _ hs)
  have hfile : (d.write (placeAt d root c parts) (.file bytes)).get?
      (Path.resolve d.workingDirectory (moduleAt root c parts)) = some (.file bytes) := by
    rw [moduleAt, Path.resolve_below hnames]
    exact h.free.get?_write_place
  obtain ⟨w, hw⟩ := variablesOf_broken (c := c) hb hfile
  rw [← variablesOf_fst, complaints, hw]
  exact ⟨rfl, w, rfl⟩

end Scan

open Scan

/-- A broken module at a free place leaves the databases as they are, and there is one more warning.
The pattern must not go up, and the directory of the database area must not come into reach with the
module. The databases are those that the other modules declare, unless a name that the scan asks for is
too long: then there are none to tell. -/
theorem findDatabases_broken (htree : d.IsTree) (hrel : (area c).isAbsolute = false)
    (hup : ".." ∉ (Path.parse (pattern c)).parts)
    (harea : d.isDirectory (directory root c) = .ok false → d.get? (placeAt d root c []) = none) :
    (∀ ts, Glob.steps (pattern c) = .ok ts → (∃ modules, Scanned d root c modules) ∨
      ∃ path s, findDatabases d root c = (.error (.file (.nameTooLong path)), []) ∧
        IsOverlong d root c ts s) ∧
      ∀ parts bytes, Admits d root c parts bytes → IsBroken (shownAt c parts) bytes →
        let d' := d.write (placeAt d root c parts) (.file bytes)
        (∃ modules, Scanned d root c modules) ∧
          (findDatabases d' root c).1 = (findDatabases d root c).1 ∧
          ∃ front back w, warnings (findDatabases d root c).2 = front ++ back ∧
            warnings (findDatabases d' root c).2 = front ++ w :: back := by
  refine ⟨fun ts hts => exists_scanned htree hrel hup hts harea, ?_⟩
  intro parts bytes hnew hbroken d'
  obtain ⟨ts, hts, -⟩ := hnew.included.matched
  have htree' : d'.IsTree := htree.write hnew.free
  have harea' : d'.isDirectory (directory root c) = .ok false →
      d'.get? (placeAt d' root c []) = none := by
    intro hd
    cases hnew.reached.symm.trans hd
  -- the names are those of the old disk, and none of them is too long
  obtain ⟨modules, h⟩ := (exists_scanned htree hrel hup hts harea).resolve_right
    fun ⟨_, s, _, hs⟩ => hnew.not_isOverlong hts s hs
  obtain ⟨modules', h'⟩ := (exists_scanned htree' hrel hup hts harea').resolve_right
    fun ⟨_, s, _, hs⟩ => hnew.not_isOverlong hts s hs
  have hfresh : parts ∉ modules := by
    intro hm
    obtain ⟨-, bytes', hfile⟩ := (h.mem parts).mp hm
    cases hnew.free.free.symm.trans hfile
  -- both lists are in order, so the new path only stands somewhere between the old ones
  obtain ⟨front, back, rfl, rfl⟩ :=
    Path.exists_insert h.sorted h'.sorted (h.mem_write hnew h') hfresh
  have hread : ∀ q ∈ front ++ back,
      d'.readText (moduleAt root c q) = d.readText (moduleAt root c q) :=
    fun q hq => h.readText_write htree
      (h.isDirectory htree harea (fun _ s hts => hnew.not_isOverlong hts s) hq) hnew.free hq
  obtain ⟨hnone, w, hw⟩ := hnew.broken hbroken
  have hfound : (front ++ parts :: back).flatMap (declared d' root c)
      = (front ++ back).flatMap (declared d root c) := by
    rw [flatMap_middle fun q hq => declared_congr (hread q hq), hnone, List.nil_append,
      List.flatMap_append]
  have hlog : (front ++ parts :: back).flatMap (complaints d' root c)
      = front.flatMap (complaints d root c) ++ w :: back.flatMap (complaints d root c) := by
    rw [flatMap_middle fun q hq => complaints_congr (hread q hq), hw, List.singleton_append]
  refine ⟨⟨_, h⟩, ?_, front.flatMap (complaints d root c), back.flatMap (complaints d root c)
    ++ warnings (Catalog.ofList ((front ++ back).flatMap (declared d root c))).2, w, ?_, ?_⟩
  · rw [h.outcome, h'.outcome, hfound]
  · rw [h.log, List.flatMap_append, List.append_assoc]
  · rw [h'.log, hfound, hlog, List.append_assoc, List.cons_append]

/-- A file that is no module. -/
def noModule : List UInt8 := "export const = ;".toList.map fun c => .ofNat c.toNat

/-- The project with one more connection module. -/
def extendedProject (bytes : List UInt8) : Disk :=
  connectedProject.write ["p", "src", "database", "a", "conn.a.ts"] (.file bytes)

/-- The project keeps its databases with a file that is no text, and with one that is no module. -/
theorem findDatabases_broken_connectedProject :
    (∃ modules, Scanned connectedProject ⟨.root, ["p"]⟩ {} modules) ∧
      (Admits connectedProject ⟨.root, ["p"]⟩ {} ["a", "conn.a.ts"] [0xff] ∧
        IsBroken "src/database/a/conn.a.ts" [0xff] ∧
        (findDatabases (extendedProject [0xff]) ⟨.root, ["p"]⟩ {}).1
          = (findDatabases connectedProject ⟨.root, ["p"]⟩ {}).1 ∧
        ∃ front back w,
          warnings (findDatabases connectedProject ⟨.root, ["p"]⟩ {}).2 = front ++ back ∧
          warnings (findDatabases (extendedProject [0xff]) ⟨.root, ["p"]⟩ {}).2
            = front ++ w :: back) ∧
      (Admits connectedProject ⟨.root, ["p"]⟩ {} ["a", "conn.a.ts"] noModule ∧
        IsBroken "src/database/a/conn.a.ts" noModule ∧
        (findDatabases (extendedProject noModule) ⟨.root, ["p"]⟩ {}).1
          = (findDatabases connectedProject ⟨.root, ["p"]⟩ {}).1 ∧
        ∃ front back w,
          warnings (findDatabases connectedProject ⟨.root, ["p"]⟩ {}).2 = front ++ back ∧
          warnings (findDatabases (extendedProject noModule) ⟨.root, ["p"]⟩ {}).2
            = front ++ w :: back) := by
  have hsteps : Glob.steps (pattern {}) = .ok [.deep, .fit (Glob.pieces "conn.*")] := rfl
  have hincluded : Includes ⟨.root, ["p"]⟩ {} ["a", "conn.a.ts"] :=
    ⟨⟨_, hsteps, .deep ["a"] (.fit (by decide) .nil)⟩, by decide, by decide⟩
  have htext : Admits connectedProject ⟨.root, ["p"]⟩ {} ["a", "conn.a.ts"] [0xff] :=
    ⟨hincluded, by decide, by decide +kernel⟩
  have hmodule : Admits connectedProject ⟨.root, ["p"]⟩ {} ["a", "conn.a.ts"] noModule :=
    ⟨hincluded, by decide, by decide +kernel⟩
  have hnotext : IsBroken "src/database/a/conn.a.ts" [0xff] := by decide +kernel
  have hnomodule : IsBroken "src/database/a/conn.a.ts" noModule := by decide +kernel
  obtain ⟨hscan, h⟩ := @findDatabases_broken connectedProject ⟨.root, ["p"]⟩ {} (by decide)
    (by decide) (by decide +kernel) (by decide)
  have hbroken := h _ _ htext hnotext
  exact ⟨hbroken.1, ⟨htext, hnotext, hbroken.2⟩, ⟨hmodule, hnomodule, (h _ _ hmodule hnomodule).2⟩⟩

theorem Path.mergeSort_eq {l l' : List (List String)} (h : l.Perm l')
    (hs : l'.Pairwise fun p q => le p q = true) : l.mergeSort le = l' :=
  List.Perm.eq_of_pairwise (fun _ _ _ _ => le_antisymm) (List.pairwise_mergeSort le_trans le_total l)
    hs ((List.mergeSort_perm l le).trans h)

/-- A broken module at a free place that changes the databases. -/
structure Scan.Misleads (d : Disk) (root : Path) (c : Conventions) (place : List String)
    (bytes : List UInt8) : Prop where
  tree : d.IsTree
  relative : (area c).isAbsolute = false
  free : d.IsFree place
  included : IsConnection (d.write place (.file bytes)) root c place
  broken : ∀ path, IsBroken path bytes
  changed : (findDatabases (d.write place (.file bytes)) root c).1 ≠ (findDatabases d root c).1

/-- Whether a result has a variable of some module. -/
def Scan.mentions (path : String) (result : Except ScanError Catalog) : Bool :=
  result.toOption.any fun k => k.entries.any fun v => v.modulePath = path

theorem Scan.misleads_of_files {place base : List String} {text : String} {found : List (List String)}
    (htree : d.IsTree) (hrel : (area c).isAbsolute = false) (hfree : d.IsFree place)
    (hb : ∀ path, IsBroken path bytes)
    (hd : (d.write place (.file bytes)).isDirectory (directory root c) = .ok true)
    (hbase : Path.resolve d.workingDirectory (directory root c) = base) (htext : pattern c = text)
    (hf : Glob.files (d.write place (.file bytes)) base text = .ok found)
    (hin : ∃ parts ∈ found.filter (isCandidate ∘ moduleAt root c),
      Path.resolve d.workingDirectory (moduleAt root c parts) = place) (path : String)
    (hnew : mentions path ((Catalog.ofList ((found.filter (isCandidate ∘ moduleAt root c)).flatMap
      (declared (d.write place (.file bytes)) root c))).1.mapError .collision) = true)
    (hold : mentions path (findDatabases d root c).1 = false) :
    Misleads d root c place bytes := by
  have hresolve : (d.write place (.file bytes)).resolve (directory root c) = base :=
    (Disk.resolve_eq ..).trans hbase
  rw [← hresolve, ← htext] at hf
  have hm := connectionModules_of_files hf
  obtain ⟨parts, hparts, hplace⟩ := hin
  refine ⟨htree, hrel, hfree, ⟨_, hm, _, List.mem_map_of_mem hparts, hplace⟩, hb, ?_⟩
  intro he
  rw [← (findDatabases_of_modules hrel hd hm).1, he, hold] at hnew
  cases hnew

def climbingMarker : Data.Value := .map [(.text "connection_path_marker", .text "*/../*/conn.")]

def climbingArea : Data.Value := .map [(.text "database_area", .text "src/database/x/..")]

/-- What a configuration says, the standard conventions if it is refused. -/
def Conventions.accepted (v : Data.Value) : Conventions :=
  (ofValue v).toOption.getD {}

theorem Conventions.ofValue_eq_accepted {v : Data.Value}
    (h : (ofValue v).toOption.isSome = true) : ofValue v = .ok (accepted v) := by
  unfold accepted
  cases hv : ofValue v with
  | error e =>
    rw [hv] at h
    cases h
  | ok c => rfl

/-- A pattern that goes up finds a file by a path over the new module's directory, and an area that
goes up is reached by way of the new module's directory. -/
theorem findDatabases_broken_climbing :
    (∃ c, Conventions.ofValue climbingMarker = .ok c ∧ Misleads connectedProject ⟨.root, ["p"]⟩ c
      ["p", "src", "database", "0", "conn.b.ts"] [0xff]) ∧
    (∃ c, Conventions.ofValue climbingArea = .ok c ∧ Misleads connectedProject ⟨.root, ["p"]⟩ c
      ["p", "src", "database", "x", "conn.b.ts"] [0xff]) := by
  have hbytes : ∀ path, IsBroken path [0xff] := by
    rintro path cs ⟨⟩
  constructor
  · have hsorted : ([["a", "..", "a", "conn.b.ts"], ["a", "..", "0", "conn.b.ts"],
        ["0", "..", "a", "conn.b.ts"], ["0", "..", "0", "conn.b.ts"]]).mergeSort Path.le = _ :=
      Path.mergeSort_eq (List.reverse_perm _).symm (by decide)
    have hf : Glob.files (connectedProject.write ["p", "src", "database", "0", "conn.b.ts"]
        (.file [0xff])) ["p", "src", "database"] "*/../*/conn.*" = .ok _ :=
      congrArg (fun l => Except.ok (List.eraseDups l)) hsorted
    refine ⟨_, Conventions.ofValue_eq_accepted (by decide +kernel), ?_⟩
    exact misleads_of_files (by decide) (by decide +kernel) (by decide) hbytes (by decide +kernel)
      (by decide +kernel) (by decide +kernel) hf (by decide +kernel) "src/database/0/../a/conn.b.ts"
      (by decide +kernel) (by decide +kernel)
  · have hsorted : ([["a", "conn.b.ts"], ["x", "conn.b.ts"]]).mergeSort Path.le = _ :=
      List.mergeSort_of_pairwise (by decide)
    have hf : Glob.files (connectedProject.write ["p", "src", "database", "x", "conn.b.ts"]
        (.file [0xff])) ["p", "src", "database"] "conn.*" = .ok _ :=
      congrArg (fun l => Except.ok (List.eraseDups l)) hsorted
    refine ⟨_, Conventions.ofValue_eq_accepted (by decide +kernel), ?_⟩
    exact misleads_of_files (by decide) (by decide +kernel) (by decide) hbytes (by decide +kernel)
      (by decide +kernel) (by decide +kernel) hf (by decide +kernel) "src/database/x/../a/conn.b.ts"
      (by decide +kernel) (by decide +kernel)

end ConventionLint
