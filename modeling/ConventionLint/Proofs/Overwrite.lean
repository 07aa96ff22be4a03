import ConventionLint.Conventions.Load
import ConventionLint.Database.Scan
import ConventionLint.Proofs.Glob
import ConventionLint.Proofs.Tree

/-! A disk on which one file has another content. All that is seen of the disk stays the same, but for
what is read from that file. -/
namespace ConventionLint

def Entry.overwrite (bytes : List UInt8) : Entry → Entry
  | .file _ => .file bytes
  | .directory => .directory

/-- Puts another content into a file; all else stays, and a place without a file stays too. -/
def Disk.overwrite (d : Disk) (place : List String) (bytes : List UInt8) : Disk :=
  { d with entries := d.entries.map fun e =>
      (e.1, if e.1 = place then e.2.overwrite bytes else e.2) }

variable {d : Disk} {place : List String} {bytes : List UInt8} {p : Path}

namespace Disk

theorem get?_overwrite (parts : List String) :
    (d.overwrite place bytes).get? parts =
      (d.get? parts).map fun e => if parts = place then e.overwrite bytes else e := by
  unfold Volume.get? overwrite
  split
  · simp [Entry.overwrite]
  · induction d.entries with
    | nil => rfl
    | cons e entries ih =>
      rw [List.map_cons, List.lookup_cons, List.lookup_cons]
      cases he : parts == e.1 with
      | true => simp [eq_of_beq he]
      | false => exact ih

/-- A path leads to the same place, since directories stay directories. -/
theorem walkFrom_overwrite (text : String) (here parts : List String) :
    (d.overwrite place bytes).walkFrom text here parts = d.walkFrom text here parts := by
  induction parts generalizing here with
  | nil => rfl
  | cons part parts ih =>
    rw [Volume.walkFrom, Volume.walkFrom, get?_overwrite]
    rcases d.get? here with _ | _ | _
    · rfl
    · by_cases hp : here = place <;> simp [hp, Entry.overwrite]
    · by_cases hp : here = place <;> simp [hp, Entry.overwrite, ih]

/-- What a path leads to stays as it is, or is the file that was overwritten. -/
theorem find_overwrite : (d.overwrite place bytes).find p =
    (d.find p).map fun e =>
      if Path.resolve d.workingDirectory p = place then e.overwrite bytes else e := by
  rw [Volume.find_eq, Volume.find_eq, walkFrom_overwrite]
  split
  · cases hw : d.walkFrom p.toString [] (d.workingDirectory.join p).parts with
    | error e =>
      have hw' : d.walkFrom p.toString []
          ((d.overwrite place bytes).workingDirectory.join p).parts = .error e := hw
      rw [hw']
      rfl
    | ok result =>
      have hw' : d.walkFrom p.toString []
          ((d.overwrite place bytes).workingDirectory.join p).parts = .ok result := hw
      have hr : result = d.resolve p := Volume.eq_of_walkFrom hw
      rw [hw', ← resolve_eq, ← hr]
      dsimp only
      rw [get?_overwrite]
      cases d.get? result <;> rfl
  · rfl

theorem find_overwrite_of_ne (h : Path.resolve d.workingDirectory p ≠ place) :
    (d.overwrite place bytes).find p = d.find p := by
  rw [find_overwrite]
  cases d.find p <;> simp [Except.map, h]

/-- What kind of entry a path leads to stays the same. -/
theorem leadsTo_overwrite {kind : Entry → Bool} (h : ∀ e : Entry, kind (e.overwrite bytes) = kind e) :
    (d.overwrite place bytes).leadsTo kind p = d.leadsTo kind p := by
  unfold Volume.leadsTo
  rw [find_overwrite]
  cases d.find p with
  | error e => rfl
  | ok e =>
    by_cases hp : Path.resolve d.workingDirectory p = place <;> simp [Except.map, hp, h]

theorem isFile_overwrite : (d.overwrite place bytes).isFile p = d.isFile p :=
  leadsTo_overwrite fun e => by cases e <;> rfl

theorem isDirectory_overwrite : (d.overwrite place bytes).isDirectory p = d.isDirectory p :=
  leadsTo_overwrite fun e => by cases e <;> rfl

theorem readText_overwrite (h : Path.resolve d.workingDirectory p ≠ place) :
    (d.overwrite place bytes).readText p = d.readText p := by
  unfold Volume.readText Volume.readBytes
  rw [find_overwrite_of_ne h]
  rfl

theorem readText?_overwrite (h : Path.resolve d.workingDirectory p ≠ place) :
    (d.overwrite place bytes).readText? p = d.readText? p := by
  unfold Volume.readText?
  rw [readText_overwrite h]

theorem filesBelow_overwrite (directory : List String) :
    (d.overwrite place bytes).filesBelow directory = d.filesBelow directory := by
  unfold Volume.filesBelow
  rw [linkedBelow_eq_nil, linkedBelow_eq_nil]
  unfold Volume.storedBelow overwrite
  rw [List.filterMap_map]
  congr 3
  funext ⟨here, e⟩
  cases e <;> by_cases h : here = place <;> simp [h, Entry.overwrite]

end Disk

/-! Patterns match the same files. -/
namespace Glob

theorem directories_overwrite (f : Found) :
    directories (d.overwrite place bytes) f = directories d f := by
  unfold directories Disk.overwrite
  rw [List.filterMap_map]
  congr 2
  funext ⟨here, e⟩
  cases e <;> by_cases h : here = place <;> simp [h, Entry.overwrite]

theorem advance_overwrite (last : Bool) (f : Found) (t : Step) :
    advance (d.overwrite place bytes) last f t = advance d last f t := by
  cases t with
  | deep => exact directories_overwrite f
  | up => rfl
  | name s =>
    unfold advance
    dsimp only
    rw [Disk.links_eq_nil, Disk.links_eq_nil, Path.land_nil, Disk.get?_overwrite]
    rcases d.get? (f.place ++ [s]) with _ | _ | _ <;>
      by_cases h : f.place ++ [s] = place <;> simp [h, Entry.overwrite]
  | fit ps =>
    unfold advance
    rw [linkedChildren_eq_nil (Disk.links_eq_nil _), linkedChildren_eq_nil d.links_eq_nil,
      List.append_nil, List.append_nil]
    unfold children Disk.overwrite
    simp only [List.filterMap_filterMap, List.filterMap_map]
    congr 1
    funext ⟨here, e⟩
    dsimp only [Function.comp]
    split
    · cases e <;> by_cases h : here = place <;> simp [h, Entry.overwrite]
    · rfl

theorem select_overwrite (ts : List Step) (fs : List Found) :
    select (d.overwrite place bytes) ts fs = select d ts fs := by
  induction ts generalizing fs with
  | nil => rfl
  | cons t ts ih =>
    rw [select, select, ih]
    simp only [advance_overwrite]

theorem overlong?_overwrite (ts : List Step) (fs : List Found) :
    overlong? (d.overwrite place bytes) ts fs = overlong? d ts fs := by
  induction ts generalizing fs with
  | nil => rfl
  | cons t ts ih =>
    rw [overlong?, overlong?, ih]
    simp only [advance_overwrite]

theorem filesAlong_overwrite (ts : List Step) (directory : List String) :
    filesAlong (d.overwrite place bytes) ts directory = filesAlong d ts directory := by
  have hkind : ∀ parts, ((d.overwrite place bytes).get? parts).any Entry.isFile
      = (d.get? parts).any Entry.isFile := by
    intro parts
    rw [Disk.get?_overwrite]
    rcases d.get? parts with _ | _ | _ <;> by_cases h : parts = place <;> simp [h, Entry.overwrite,
      Entry.isFile]
  unfold filesAlong
  simp only [select_overwrite, hkind]

theorem files_overwrite (directory : List String) (pattern : String) :
    files (d.overwrite place bytes) directory pattern = files d directory pattern := by
  unfold files
  simp only [overlong?_overwrite, filesAlong_overwrite]

end Glob

theorem Lint.projectFiles_overwrite (root : List String) :
    projectFiles (d.overwrite place bytes) root = projectFiles d root := by
  unfold projectFiles
  rw [Disk.filesBelow_overwrite]

variable {root : Path} {c : Conventions}

namespace Scan

theorem connectionModules_overwrite :
    connectionModules (d.overwrite place bytes) root c = connectionModules d root c := by
  unfold connectionModules
  dsimp only
  rw [Glob.files_overwrite]
  rfl

theorem collect_overwrite {ps : List Path}
    (h : ∀ p ∈ ps, Path.resolve d.workingDirectory p ≠ place) :
    collect (d.overwrite place bytes) root c ps = collect d root c ps := by
  induction ps with
  | nil => rfl
  | cons p ps ih =>
    rw [collect, collect, Disk.readText_overwrite (h p (List.mem_cons_self ..)),
      ih fun p hp => h p (List.mem_cons_of_mem _ hp)]

/-- A module that may declare databases. -/
def IsConnection (d : Disk) (root : Path) (c : Conventions) (place : List String) : Prop :=
  ∃ ps, connectionModules d root c = .ok ps ∧ ∃ p ∈ ps, Path.resolve d.workingDirectory p = place

end Scan

/-- The databases stay the same unless the file is a connection module. -/
theorem findDatabases_overwrite (h : ¬ Scan.IsConnection d root c place) :
    findDatabases (d.overwrite place bytes) root c = findDatabases d root c := by
  unfold findDatabases
  dsimp only
  rw [Disk.isDirectory_overwrite, Scan.connectionModules_overwrite]
  cases hm : Scan.connectionModules d root c with
  | error e => rfl
  | ok ps =>
    have hp : ∀ p ∈ ps, Path.resolve d.workingDirectory p ≠ place :=
      fun p hp he => h ⟨ps, hm, p, hp, he⟩
    simp only [Scan.collect_overwrite hp]

namespace Conventions

/-- The file that the conventions of a project come from. -/
def source? (d : Volume) (root : Path) (file : Option Path) : Option Path :=
  match file with
  | some p => some p
  | none => (find? d root).toOption.join

theorem load_overwrite (h : Path.resolve d.workingDirectory p ≠ place) :
    load (d.overwrite place bytes) p = load d p := by
  unfold load Volume.readStream
  rw [Disk.readText_overwrite h]

theorem firstFile?_overwrite (ps : List Path) :
    firstFile? (d.overwrite place bytes) ps = firstFile? d ps := by
  induction ps with
  | nil => rfl
  | cons p ps ih => rw [firstFile?, firstFile?, Disk.isFile_overwrite, ih]

theorem find?_overwrite : find? (d.overwrite place bytes) root = find? d root :=
  firstFile?_overwrite _

/-- The conventions stay the same unless the file is the one they come from. -/
theorem ofProject_overwrite {file : Option Path}
    (h : ∀ p, source? d root file = some p → Path.resolve d.workingDirectory p ≠ place) :
    ofProject (d.overwrite place bytes) root file = ofProject d root file := by
  unfold ofProject
  unfold source? at h
  cases file with
  | some p => exact load_overwrite (h p rfl)
  | none =>
    dsimp only at h ⊢
    rw [find?_overwrite]
    rcases hf : find? d root with e | _ | p
    · rfl
    · rfl
    · exact load_overwrite (h p (by rw [hf]; rfl))

end Conventions

end ConventionLint
