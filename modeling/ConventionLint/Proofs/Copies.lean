import Mathlib.Data.List.Find
import ConventionLint.Proofs.DatabaseArea
import ConventionLint.Proofs.Tree

/-! Two directories that hold copies of one project, on one disk or on two: what is found inside of
them is the same. -/
namespace ConventionLint

namespace Path

/-- The place that components lead to from a place, none if they lead above the top. -/
def within? (here : List String) : List String → Option (List String)
  | [] => some here
  | part :: r =>
    if part = ".." then
      if here = [] then none else within? here.dropLast r
    else within? (here ++ [part]) r

variable {here parts place front : List String}

theorem within?_append (here parts more : List String) :
    within? here (parts ++ more) = (within? here parts).bind (within? · more) := by
  induction parts generalizing here with
  | nil => rfl
  | cons part parts ih =>
    rw [List.cons_append, within?, within?]
    split
    · split
      · rfl
      · exact ih _
    · exact ih _

theorem within?_of_not_mem (h : ".." ∉ parts) (here : List String) :
    within? here parts = some (here ++ parts) := by
  induction parts generalizing here with
  | nil => simp [within?]
  | cons part parts ih =>
    simp only [List.mem_cons, not_or] at h
    rw [within?, if_neg (Ne.symm h.1), ih h.2]
    simp

/-- Components that stay inside lead to the same place below any front. -/
theorem foldl_step_within (h : within? here parts = some place) (front : List String) :
    parts.foldl (step []) (front ++ here) = front ++ place := by
  induction parts generalizing here with
  | nil =>
    cases h
    rfl
  | cons part parts ih =>
    rw [within?] at h
    rw [List.foldl_cons, step]
    split at h
    · rename_i hpart
      split at h
      · cases h
      · rename_i hn
        rw [if_pos hpart, List.dropLast_append_of_ne_nil hn]
        exact ih h
    · rename_i hpart
      rw [if_neg hpart, land_nil, List.append_assoc]
      exact ih h

theorem normalize_within (hf : ∀ s ∈ front, IsName s) (h : within? [] parts = some place) :
    normalize (front ++ parts) = front ++ place := by
  have hparts := foldl_step_within h front
  rw [List.append_nil] at hparts
  rw [normalize, List.foldl_append, foldl_step (fun s hs => (hf s hs).2.2.1) direct_nil]
  exact hparts

theorem name_append {a : Anchor} {front : List String} (hp : parts ≠ []) :
    name ⟨a, front ++ parts⟩ = parts.getLastD "" := by
  simp [name, List.getLastD_eq_getLast?, List.getLast?_append, List.getLast?_eq_some_getLast hp]

theorem isValid_append {a : Anchor} (hf : ∀ s ∈ front, IsName s) :
    isValid ⟨a, front ++ parts⟩ = isValid ⟨.root, parts⟩ := by
  have hfront : isValid ⟨a, front⟩ = true := isValid_names hf
  unfold isValid at hfront ⊢
  rw [List.all_append, hfront, Bool.true_and]

end Path

namespace Volume

variable {d : Volume} {p : Path} {e : Entry}

/-- The error of a path that leads nowhere is all that its text is used for. -/
theorem walkFrom_toOption (text text' : String) (here parts : List String) :
    (d.walkFrom text here parts).toOption = (d.walkFrom text' here parts).toOption := by
  induction parts generalizing here with
  | nil => rfl
  | cons part parts ih =>
    rw [walkFrom, walkFrom]
    split
    · rfl
    · rfl
    · split
      · rfl
      · exact ih _

theorem walkFrom_of_find (h : d.find p = .ok e) (text : String) :
    d.walkFrom text [] (d.workingDirectory.join p).parts = .ok (d.resolve p) := by
  have ht := walkFrom_toOption (d := d) text p.toString [] (d.workingDirectory.join p).parts
  rw [(of_find h).1] at ht
  cases hw : d.walkFrom text [] (d.workingDirectory.join p).parts with
  | error e =>
    rw [hw] at ht
    cases ht
  | ok place =>
    rw [hw] at ht
    exact congrArg Except.ok (Option.some.inj ht)

theorem walkFrom_append (text : String) (here parts more : List String) :
    d.walkFrom text here (parts ++ more)
      = d.walkFrom text here parts >>= fun place => d.walkFrom text place more := by
  induction parts generalizing here with
  | nil => rfl
  | cons part parts ih =>
    rw [List.cons_append, walkFrom, walkFrom]
    split
    · rfl
    · rfl
    · split
      · rfl
      · exact ih _

theorem readText_of_error {e : FileError} (h : d.find p = .error e) :
    d.readText p = .error (.file e) := by
  unfold readText readBytes
  rw [h]
  rfl

theorem readText_of_directory (h : d.find p = .ok .directory) :
    d.readText p = .error (.file (.isDirectory p.toString)) := by
  unfold readText readBytes
  rw [h]
  rfl

end Volume

namespace Disk

variable {d d' : Disk} {root root' parts place : List String} {e : Entry}

theorem WellFormed.not_mem_of_entry (h : d.WellFormed) (hm : (root ++ parts, e) ∈ d.entries) :
    ".." ∉ parts :=
  fun hp => ((h.names _ hm).2 _ (List.mem_append_right _ hp)).2.2.1 rfl

/-- What is read from a file depends on its bytes only. -/
theorem readText_of_file {p : Path} {bytes : List UInt8} (h : d.find p = .ok (.file bytes)) :
    d.readText p =
      match Text.decode bytes with
      | .error e => .error (.decode e)
      | .ok cs => .ok (String.ofList (Text.unifyLines cs)) := by
  unfold Volume.readText Volume.readBytes
  rw [h, locked_eq_nil]
  rfl

/-- A directory on a disk that is a tree. -/
structure Holds (d : Disk) (root : List String) : Prop where
  tree : d.WellFormed
  names : ∀ s ∈ root, Path.IsName s
  directory : d.isDirectory ⟨.root, root⟩ = .ok true

instance (d : Disk) (root : List String) : Decidable (d.Holds root) :=
  decidable_of_iff (d.WellFormed ∧ (∀ s ∈ root, Path.IsName s) ∧
    d.isDirectory ⟨.root, root⟩ = .ok true) ⟨fun h => ⟨h.1, h.2.1, h.2.2⟩, fun h => ⟨h.1, h.2, h.3⟩⟩

namespace Holds

variable (h : d.Holds root)
include h

theorem resolve : d.resolve ⟨.root, root⟩ = root := by
  rw [resolve_eq, Path.resolve, Path.join_root]
  exact Path.normalize_names h.names

theorem get? : d.get? root = some .directory := by
  have hd := Volume.get?_of_isDirectory h.directory
  rwa [h.resolve] at hd

/-- The way to the directory is open. -/
theorem walkFrom (text : String) : d.walkFrom text [] root = .ok root := by
  have hw := Volume.walkFrom_of_find (Volume.isDirectory_eq_true_iff.mp h.directory) text
  rwa [h.resolve, Path.join_root] at hw

/-- A name that can be asked for leads to what has it in the directory. -/
theorem isFile_name {name : String} (hn : Path.IsName name) (hs : isTooLong name = false) :
    d.isFile ⟨.root, root ++ [name]⟩ = .ok ((d.get? (root ++ [name])).any Entry.isFile) := by
  have hvalid : Path.isValid ⟨.root, root ++ [name]⟩ = true :=
    Path.isValid_below (p := ⟨.root, root⟩) (Path.isValid_names h.names) (by simpa using hn)
  have hwalk : ∀ text, d.walkFrom text [] (root ++ [name]) = .ok (root ++ [name]) := by
    intro text
    rw [Volume.walkFrom_append, h.walkFrom]
    change d.walkFrom text root [name] = _
    rw [Volume.walkFrom, h.get?, hs, Path.step, if_neg hn.2.2.1, links_eq_nil, Path.land_nil]
    rfl
  rw [Volume.isFile, Volume.leadsTo, Volume.find_eq, hvalid, if_pos rfl, Path.join_root, hwalk]
  dsimp only
  cases d.get? (root ++ [name]) <;> rfl

theorem firstFile? {names : List String} (hn : ∀ n ∈ names, Path.IsName n ∧ isTooLong n = false) :
    Conventions.firstFile? d (names.map fun n => ⟨.root, root ++ [n]⟩)
      = .ok ((names.find? fun n => (d.get? (root ++ [n])).any Entry.isFile).map
        fun n => ⟨.root, root ++ [n]⟩) := by
  induction names with
  | nil => rfl
  | cons n names ih =>
    obtain ⟨hname, hshort⟩ := hn n (List.mem_cons_self ..)
    rw [List.map_cons, Conventions.firstFile?, h.isFile_name hname hshort, List.find?_cons]
    cases (d.get? (root ++ [n])).any Entry.isFile with
    | true => rfl
    | false => exact ih fun m hm => hn m (List.mem_cons_of_mem _ hm)

end Holds

/-- Two directories with the same files and directories below them. -/
structure Copies (d : Disk) (root : List String) (d' : Disk) (root' : List String) : Prop where
  left : d.Holds root
  right : d'.Holds root'
  there : ∀ x ∈ d.entries, ∀ parts ∈ Path.below? root x.1, parts ≠ [] →
    (root' ++ parts, x.2) ∈ d'.entries
  back : ∀ x ∈ d'.entries, ∀ parts ∈ Path.below? root' x.1, parts ≠ [] →
    (root ++ parts, x.2) ∈ d.entries

instance (d : Disk) (root : List String) (d' : Disk) (root' : List String) :
    Decidable (d.Copies root d' root') :=
  decidable_of_iff (d.Holds root ∧ d'.Holds root' ∧
    (∀ x ∈ d.entries, ∀ parts ∈ Path.below? root x.1, parts ≠ [] →
      (root' ++ parts, x.2) ∈ d'.entries) ∧
    ∀ x ∈ d'.entries, ∀ parts ∈ Path.below? root' x.1, parts ≠ [] →
      (root ++ parts, x.2) ∈ d.entries)
    ⟨fun h => ⟨h.1, h.2.1, h.2.2.1, h.2.2.2⟩, fun h => ⟨h.1, h.2, h.3, h.4⟩⟩

namespace Copies

variable (h : d.Copies root d' root')
include h

theorem symm : d'.Copies root' d root := ⟨h.right, h.left, h.back, h.there⟩

theorem mem_entries (hp : parts ≠ []) :
    (root ++ parts, e) ∈ d.entries ↔ (root' ++ parts, e) ∈ d'.entries :=
  ⟨fun hm => h.there _ hm parts (Path.below?_eq_some_iff.mpr rfl) hp,
    fun hm => h.back _ hm parts (Path.below?_eq_some_iff.mpr rfl) hp⟩

theorem get? (parts : List String) : d.get? (root ++ parts) = d'.get? (root' ++ parts) := by
  by_cases hp : parts = []
  · rw [hp, List.append_nil, List.append_nil, h.left.get?, h.right.get?]
  · have hne : ∀ front : List String, front ++ parts ≠ [] :=
      fun front => List.append_ne_nil_of_right_ne_nil front hp
    refine Option.ext fun e => ?_
    rw [h.left.tree.get?_eq_some_iff (hne root), h.right.tree.get?_eq_some_iff (hne root')]
    exact h.mem_entries hp

/-- A path that stays inside leads to the same place in both, or nowhere in both for the same kind of
reason. -/
theorem walkFrom (here : List String) (text text' : String)
    (hin : Path.within? here parts = some place) :
    (∃ e e', d.walkFrom text (root ++ here) parts = .error e ∧
        d'.walkFrom text' (root' ++ here) parts = .error e' ∧ e.isAbsence = e'.isAbsence) ∨
      (d.walkFrom text (root ++ here) parts = .ok (root ++ place) ∧
        d'.walkFrom text' (root' ++ here) parts = .ok (root' ++ place)) := by
  induction parts generalizing here with
  | nil =>
    cases hin
    exact Or.inr ⟨rfl, rfl⟩
  | cons part parts ih =>
    rw [Volume.walkFrom, Volume.walkFrom, h.get?]
    rw [Path.within?] at hin
    rcases d'.get? (root' ++ here) with _ | _ | _
    · exact Or.inl ⟨_, _, rfl, rfl, rfl⟩
    · exact Or.inl ⟨_, _, rfl, rfl, rfl⟩
    · dsimp only
      split
      · exact Or.inl ⟨_, _, rfl, rfl, rfl⟩
      · rw [links_eq_nil, links_eq_nil, Path.step, Path.step]
        split at hin
        · rename_i hpart
          split at hin
          · cases hin
          · rename_i hn
            rw [if_pos hpart, if_pos hpart, List.dropLast_append_of_ne_nil hn,
              List.dropLast_append_of_ne_nil hn]
            exact ih _ hin
        · rename_i hpart
          rw [if_neg hpart, if_neg hpart, Path.land_nil, Path.land_nil, List.append_assoc,
            List.append_assoc]
          exact ih _ hin

/-- What a path inside leads to is the same in both. -/
theorem find {a b : Anchor} (ha : a ≠ .relative) (hb : b ≠ .relative)
    (hin : Path.within? [] parts = some place) :
    (∃ e e', d.find ⟨a, root ++ parts⟩ = .error e ∧ d'.find ⟨b, root' ++ parts⟩ = .error e' ∧
        e.isAbsence = e'.isAbsence) ∨
      ∃ x, d.find ⟨a, root ++ parts⟩ = .ok x ∧ d'.find ⟨b, root' ++ parts⟩ = .ok x := by
  have hjoin : ∀ (w : Path) {e : Anchor} (ps : List String), e ≠ .relative →
      (w.join ⟨e, ps⟩).parts = ps := by
    intro w e ps he
    simp [Path.join, Path.isAbsolute, he]
  rw [Volume.find_eq, Volume.find_eq, Path.isValid_append h.left.names,
    Path.isValid_append h.right.names, hjoin _ _ ha, hjoin _ _ hb]
  split
  · rw [Volume.walkFrom_append, Volume.walkFrom_append, h.left.walkFrom, h.right.walkFrom]
    have hw := h.walkFrom [] (Path.toString ⟨a, root ++ parts⟩)
      (Path.toString ⟨b, root' ++ parts⟩) hin
    rw [List.append_nil, List.append_nil] at hw
    dsimp only [bind, Except.bind]
    rcases hw with ⟨e, e', hw, hw', he⟩ | ⟨hw, hw'⟩
    · rw [hw, hw']
      exact Or.inl ⟨e, e', rfl, rfl, he⟩
    · rw [hw, hw']
      dsimp only
      rw [h.get?]
      cases d'.get? (root' ++ place) with
      | none => exact Or.inl ⟨_, _, rfl, rfl, rfl⟩
      | some x => exact Or.inr ⟨x, rfl, rfl⟩
  · exact Or.inl ⟨_, _, rfl, rfl, rfl⟩

theorem isDirectory (hin : Path.within? [] parts = some place) :
    (d.isDirectory ⟨.root, root ++ parts⟩).toOption
      = (d'.isDirectory ⟨.root, root' ++ parts⟩).toOption := by
  unfold Volume.isDirectory Volume.leadsTo
  obtain ⟨e, e', hf, hf', he⟩ | ⟨x, hf, hf'⟩ := h.find (a := .root) (b := .root) nofun nofun hin
  · rw [hf, hf']
    dsimp only
    rw [he]
    cases e'.isAbsence <;> rfl
  · rw [hf, hf']

theorem readText {a b : Anchor} (ha : a ≠ .relative) (hb : b ≠ .relative)
    (hin : Path.within? [] parts = some place) :
    (d.readText ⟨a, root ++ parts⟩).toOption = (d'.readText ⟨b, root' ++ parts⟩).toOption := by
  obtain ⟨e, e', hf, hf', -⟩ | ⟨bytes | _, hf, hf'⟩ := h.find ha hb hin
  · rw [Volume.readText_of_error hf, Volume.readText_of_error hf']
    rfl
  · rw [readText_of_file hf, readText_of_file hf']
  · rw [Volume.readText_of_directory hf, Volume.readText_of_directory hf']
    rfl

/-- The files below the directories are the same, in the same order. -/
theorem filesBelow : d.filesBelow root = d'.filesBelow root' := by
  refine Path.eq_of_sorted (List.pairwise_mergeSort Path.le_trans Path.le_total _)
    (List.pairwise_mergeSort Path.le_trans Path.le_total _) h.left.tree.volume.nodup_filesBelow
    h.right.tree.volume.nodup_filesBelow fun parts => ?_
  rw [mem_filesBelow, mem_filesBelow]
  refine and_congr_right fun hp => exists_congr fun bytes => ?_
  exact h.mem_entries hp

/-- The conventions are the same, and so is the error if they cannot be had. -/
theorem ofProject :
    Conventions.ofProject d ⟨.root, root⟩ none = Conventions.ofProject d' ⟨.root, root'⟩ none := by
  have hn : ∀ n ∈ Conventions.fileNames, Path.IsName n ∧ isTooLong n = false := by decide
  have hnames : ∀ front : List String,
      (Conventions.fileNames.map fun n => Path.join ⟨.root, front⟩ (Path.parse n))
        = Conventions.fileNames.map fun n => ⟨.root, front ++ [n]⟩ := fun front => rfl
  have hsame : (fun n => (d.get? (root ++ [n])).any Entry.isFile)
      = fun n => (d'.get? (root' ++ [n])).any Entry.isFile := by
    funext n
    rw [h.get?]
  unfold Conventions.ofProject Conventions.find?
  rw [hnames, hnames, h.left.firstFile? hn, h.right.firstFile? hn, hsame]
  cases hf : Conventions.fileNames.find? fun n => (d'.get? (root' ++ [n])).any Entry.isFile with
  | none => rfl
  | some n =>
    obtain ⟨hname, hshort⟩ := hn n (List.mem_of_find?_eq_some hf)
    -- the file is there, so that no error tells where it was looked for
    have hthere := h.right.isFile_name hname hshort
    rw [List.find?_some (p := fun n => (d'.get? (root' ++ [n])).any Entry.isFile) hf] at hthere
    obtain ⟨bytes, hfile'⟩ := Volume.isFile_eq_true_iff.mp hthere
    have hwithin : Path.within? [] [n] = some _ :=
      Path.within?_of_not_mem (by simpa using Ne.symm hname.2.2.1) []
    obtain ⟨_, _, -, he, -⟩ | ⟨x, hfile, he⟩ := h.find (a := .root) (b := .root) nofun nofun hwithin
    · cases hfile'.symm.trans he
    · cases hfile'.symm.trans he
      change Conventions.load d ⟨.root, root ++ [n]⟩ = Conventions.load d' ⟨.root, root' ++ [n]⟩
      unfold Conventions.load Volume.readStream
      rw [readText_of_file hfile, readText_of_file hfile']

end Copies

end Disk

namespace Glob

variable {d d' : Disk} {root root' base : List String} {last : Bool} {f g : Found} {t : Step}
  {ts : List Step} {depth next : Nat}

/-- How deep one is after a component, at least; none if it may lead above the top. -/
def Step.depth? (depth : Nat) : Step → Option Nat
  | .deep => some depth
  | .up => if depth = 0 then none else some (depth - 1)
  | .name s => if s = ".." then none else some (depth + 1)
  | .fit _ => some (depth + 1)

/-- Whether components do not lead above the top, from a place of some depth. -/
def stays (depth : Nat) : List Step → Bool
  | [] => true
  | t :: ts =>
    match t.depth? depth with
    | some next => stays next ts
    | none => false

/-- What was found below a directory, on the whole disk. -/
def Found.under (root : List String) (f : Found) : Found := ⟨f.path, root ++ f.place⟩

/-- What was reached from a place inside lies where its path says, at some depth. -/
structure Found.Inside (base : List String) (depth : Nat) (f : Found) : Prop where
  place : Path.within? base f.path = some f.place
  deep : depth ≤ f.place.length

theorem Found.under_below (root : List String) (f : Found) (parts : List String) :
    (f.below parts).under root = (f.under root).below parts := by
  simp [Found.under, Found.below]

theorem Found.under_up {root : List String} (hn : f.place ≠ []) :
    Found.under root ⟨f.path ++ [".."], f.place.dropLast⟩
      = ⟨(f.under root).path ++ [".."], (f.under root).place.dropLast⟩ := by
  simp only [Found.under, List.dropLast_append_of_ne_nil hn]

theorem Found.Inside.ne_nil (h : f.Inside base depth) (hd : depth ≠ 0) : f.place ≠ [] := by
  intro he
  have hf := h.deep
  rw [he, List.length_nil] at hf
  omega

theorem Found.Inside.below (h : f.Inside base depth) {parts : List String}
    (hn : ".." ∉ parts) (hd : next ≤ depth + parts.length) :
    (f.below parts).Inside base next where
  place := by
    rw [Found.below, Path.within?_append, h.place, Option.bind_some, Path.within?_of_not_mem hn]
  deep := by
    have hf := h.deep
    rw [Found.below, List.length_append]
    omega

theorem Found.Inside.up (h : f.Inside base depth) (hd : depth ≠ 0) :
    Found.Inside base (depth - 1) ⟨f.path ++ [".."], f.place.dropLast⟩ where
  place := by
    rw [Path.within?_append, h.place, Option.bind_some]
    simp [Path.within?, h.ne_nil hd]
  deep := by
    have hf := h.deep
    rw [List.length_dropLast]
    omega

/-- One component leads to the same places in two copies, as long as it stays inside. -/
theorem advance_copies (h : d.Copies root d' root') (hf : f.Inside base depth)
    (ht : t.depth? depth = some next) (hg : g ∈ advance d last (f.under root) t) :
    ∃ f' : Found, g = f'.under root ∧ f'.under root' ∈ advance d' last (f.under root') t ∧
      f'.Inside base next := by
  cases t with
  | deep =>
    cases ht
    obtain rfl | ⟨part, parts, hm, rfl⟩ := mem_advance_deep.mp hg
    · exact ⟨f, rfl, mem_advance_deep.mpr (Or.inl rfl), hf⟩
    · have hn : ".." ∉ part :: parts := h.left.tree.not_mem_of_entry hm
      rw [Found.under, List.append_assoc, h.mem_entries (by simp), ← List.append_assoc] at hm
      exact ⟨_, (Found.under_below ..).symm,
        mem_advance_deep.mpr (Or.inr ⟨part, parts, hm, Found.under_below ..⟩),
        hf.below hn (Nat.le_add_right ..)⟩
  | up =>
    obtain ⟨hd, ⟨⟩⟩ := Option.ite_none_left_eq_some.mp ht
    have hn := hf.ne_nil hd
    refine ⟨⟨f.path ++ [".."], f.place.dropLast⟩, ?_, ?_, hf.up hd⟩
    · rw [Found.under_up hn]
      exact List.mem_singleton.mp hg
    · rw [Found.under_up hn]
      exact List.mem_singleton.mpr rfl
  | name s =>
    obtain ⟨hs, ⟨⟩⟩ := Option.ite_none_left_eq_some.mp ht
    obtain ⟨⟨e, he, hl⟩, rfl⟩ := (mem_advance_name (Disk.links_eq_nil _)).mp hg
    rw [Found.under, List.append_assoc, h.get?, ← List.append_assoc] at he
    exact ⟨_, (Found.under_below ..).symm,
      (mem_advance_name (Disk.links_eq_nil _)).mpr ⟨⟨e, he, hl⟩, Found.under_below ..⟩,
      hf.below (by simpa using Ne.symm hs) (Nat.le_refl _)⟩
  | fit ps =>
    cases ht
    obtain ⟨name, e, hm, hfit, hl, rfl⟩ := (mem_advance_fit (Disk.links_eq_nil _)).mp hg
    have hn : ".." ∉ [name] := h.left.tree.not_mem_of_entry hm
    rw [Found.under, List.append_assoc, h.mem_entries (by simp), ← List.append_assoc] at hm
    exact ⟨_, (Found.under_below ..).symm,
      (mem_advance_fit (Disk.links_eq_nil _)).mpr ⟨name, e, hm, hfit, hl, Found.under_below ..⟩,
      hf.below hn (Nat.le_refl _)⟩

/-- What is found from a place inside is found in both copies. -/
theorem select_copies (h : d.Copies root d' root') (hf : f.Inside base depth)
    (hs : stays depth ts = true) (hg : g ∈ select d ts [f.under root]) :
    ∃ f' : Found, g = f'.under root ∧ f'.under root' ∈ select d' ts [f.under root'] ∧
      Path.within? base f'.path = some f'.place := by
  induction ts generalizing f depth with
  | nil => exact ⟨f, List.mem_singleton.mp hg, List.mem_singleton.mpr rfl, hf.place⟩
  | cons t ts ih =>
    rw [stays] at hs
    cases ht : t.depth? depth with
    | none =>
      rw [ht] at hs
      cases hs
    | some next =>
      rw [ht] at hs
      obtain ⟨g', hg', hg⟩ := mem_select_cons.mp hg
      obtain ⟨f', rfl, hf', hin⟩ := advance_copies h hf ht hg'
      obtain ⟨f'', rfl, hg, hplace⟩ := ih hin hs hg
      exact ⟨f'', rfl, mem_select_cons.mpr ⟨_, hf', hg⟩, hplace⟩

variable {pattern : String} {found found' : List (List String)} {parts : List String}

/-- A file that a pattern matches in one copy lies inside and is matched in the other. -/
theorem mem_files_copies (h : d.Copies root d' root') (ht : steps pattern = .ok ts)
    (hs : stays base.length ts = true) (hf : files d (root ++ base) pattern = .ok found)
    (hf' : files d' (root' ++ base) pattern = .ok found') (hp : parts ∈ found) :
    parts ∈ found' ∧ ∃ place, Path.within? base parts = some place := by
  obtain ⟨g, hg, rfl, bytes, hb⟩ := (mem_files hf ht).mp hp
  have hstart : Found.Inside base base.length ⟨[], base⟩ := ⟨rfl, Nat.le_refl _⟩
  obtain ⟨f, rfl, hm, hplace⟩ := select_copies h hstart hs hg
  refine ⟨(mem_files hf' ht).mpr ⟨_, hm, rfl, bytes, ?_⟩, f.place, hplace⟩
  exact (h.get? f.place).symm.trans hb

/-- Names that are too long are asked for in both copies, or in neither. -/
theorem overlong?_copies (h : d.Copies root d' root') (hf : f.Inside base depth)
    (hs : stays depth ts = true) (hn : overlong? d ts [f.under root] = none) :
    overlong? d' ts [f.under root'] = none := by
  induction ts generalizing f depth with
  | nil => rfl
  | cons t ts ih =>
    rw [overlong?_place] at hn ⊢
    refine ⟨hn.1, fun g hg => ?_⟩
    rw [stays] at hs
    cases ht : t.depth? depth with
    | none =>
      rw [ht] at hs
      cases hs
    | some next =>
      rw [ht] at hs
      obtain ⟨f', rfl, hf', hin⟩ := advance_copies h.symm hf ht hg
      exact ih hin hs (hn.2 _ hf')

/-- A pattern matches the same files in both copies. -/
theorem files_copies (h : d.Copies root d' root') (ht : steps pattern = .ok ts)
    (hs : stays base.length ts = true) (hf : files d (root ++ base) pattern = .ok found) :
    files d' (root' ++ base) pattern = .ok found := by
  have hstart : Found.Inside base base.length ⟨[], base⟩ := ⟨rfl, Nat.le_refl _⟩
  obtain ⟨ts', ht', hn, -⟩ := files_eq_ok_iff.mp hf
  cases ht.symm.trans ht'
  have hf' := files_eq_ok_iff.mpr ⟨ts, ht, overlong?_copies h hstart hs hn, rfl⟩
  have hp := pairwise_files hf
  have hp' := pairwise_files hf'
  rw [Path.eq_of_sorted (hp.imp And.left) (hp'.imp And.left) (hp.imp And.right)
    (hp'.imp And.right) fun parts => ?_]
  · exact hf'
  · exact ⟨fun hm => (mem_files_copies h ht hs hf hf' hm).1,
      fun hm => (mem_files_copies h.symm ht hs hf' hf hm).1⟩

end Glob

namespace Scan

variable {d d' : Disk} {root root' : List String} {c : Conventions}

/-- The directory of the database area, as seen from the project. -/
def area (c : Conventions) : Path := Path.parse (c.setting .databaseArea)

/-- The pattern for the modules that may declare databases. -/
def pattern (c : Conventions) : String := c.setting .connectionMarker ++ "*"

/-- Whether the search for databases stays inside the project. -/
def isContained (c : Conventions) : Bool :=
  (area c).anchor = .relative && (Path.within? [] (area c).parts).any fun base =>
    (Glob.steps (pattern c)).toOption.all (Glob.stays base.length)

theorem of_isContained (h : isContained c = true) :
    (area c).anchor = .relative ∧ ∃ base, Path.within? [] (area c).parts = some base ∧
      (Glob.steps (pattern c)).toOption.all (Glob.stays base.length) = true := by
  obtain ⟨ha, hc⟩ := Bool.and_eq_true_iff.mp h
  obtain ⟨hsome, hs⟩ := (Option.any_eq_true_iff_get ..).mp hc
  exact ⟨of_decide_eq_true ha, _, (Option.some_get hsome).symm, hs⟩

theorem directory_eq (h : (area c).anchor = .relative) (root : List String) :
    directory ⟨.root, root⟩ c = ⟨.root, root ++ (area c).parts⟩ := by
  unfold area at h
  simp [directory, area, Path.join, Path.isAbsolute, h]

theorem connectionModules_error {root : Path} {e : Glob.SearchError}
    (h : Glob.files d (d.resolve (directory root c)) (pattern c) = .error e) :
    connectionModules d root c = .error (searchError (directory root c) e) := by
  unfold pattern at h
  unfold connectionModules
  dsimp only
  rw [h]

theorem variablesOf_congr (path : String) {content content' : Except ReadError String}
    (h : content.toOption = content'.toOption) :
    (variablesOf c path content).1 = (variablesOf c path content').1 := by
  obtain ⟨e, e', rfl, rfl⟩ | ⟨text, rfl, rfl⟩ := cases_of_toOption h <;> rfl

/-- Modules inside declare the same variables in both copies. -/
theorem collect_copies (h : d.Copies root d' root') {ms : List (List String)}
    (hm : ∀ parts ∈ ms, ∃ place, Path.within? [] parts = some place) :
    (collect d ⟨.root, root⟩ c (ms.map fun parts => ⟨.root, root ++ parts⟩)).1
      = (collect d' ⟨.root, root'⟩ c (ms.map fun parts => ⟨.root, root' ++ parts⟩)).1 := by
  induction ms with
  | nil => rfl
  | cons parts ms ih =>
    obtain ⟨place, hin⟩ := hm parts (List.mem_cons_self ..)
    have ih := ih fun parts hp => hm parts (List.mem_cons_of_mem _ hp)
    have hpath : ∀ front : List String, relativeTo ⟨.root, front⟩ ⟨.root, front ++ parts⟩
        = .ok (Path.render parts) := fun front => relativeTo_below ⟨.root, front⟩ parts
    have hv := variablesOf_congr (c := c) (Path.render parts)
      (h.readText (a := .root) (b := .root) nofun nofun hin)
    simp only [List.map_cons, collect]
    rw [hpath root, hpath root']
    dsimp only
    rw [ih, hv]

/-- The place of the directory of the database area. -/
theorem resolve_directory {root base : List String} (hd : d.Holds root)
    (ha : (area c).anchor = .relative) (hb : Path.within? [] (area c).parts = some base) :
    d.resolve (directory ⟨.root, root⟩ c) = root ++ base := by
  rw [directory_eq ha, Disk.resolve_eq, Path.resolve, Path.join_root]
  exact Path.normalize_within hd.names hb

/-- Which modules of those that were found may declare databases. -/
theorem connectionModules_eq {root base : List String} {found : List (List String)}
    (hd : d.Holds root) (ha : (area c).anchor = .relative)
    (hb : Path.within? [] (area c).parts = some base)
    (hf : Glob.files d (root ++ base) (pattern c) = .ok found) :
    connectionModules d ⟨.root, root⟩ c = .ok
      (((found.map fun parts => (area c).parts ++ parts).filter fun parts =>
          (Module.dialects.lookup (Path.suffix ⟨.root, root ++ parts⟩)).isSome &&
            !(root ++ parts).contains "node_modules").map
        fun parts => ⟨.root, root ++ parts⟩) := by
  have hpaths : (found.map fun parts => (⟨.root, root ++ (area c).parts ++ parts⟩ : Path))
      = (found.map fun parts => (area c).parts ++ parts).map fun parts =>
        ⟨.root, root ++ parts⟩ := by
    simp
  unfold pattern at hf
  unfold connectionModules
  dsimp only
  rw [resolve_directory hd ha hb, hf, directory_eq ha]
  dsimp only
  rw [hpaths, List.filter_map]
  rfl

variable {base : List String}

/-- A module is told by its last component and by the directories it lies in. -/
theorem isCandidate_append {root root' parts : List String} (hp : parts ≠ [])
    (hforeign : "node_modules" ∈ root ↔ "node_modules" ∈ root') :
    ((Module.dialects.lookup (Path.suffix ⟨.root, root ++ parts⟩)).isSome &&
        !(root ++ parts).contains "node_modules") =
      ((Module.dialects.lookup (Path.suffix ⟨.root, root' ++ parts⟩)).isSome &&
        !(root' ++ parts).contains "node_modules") := by
  have hcontains : (root ++ parts).contains "node_modules"
      = (root' ++ parts).contains "node_modules" := by
    rw [Bool.eq_iff_iff, List.contains_iff_mem, List.contains_iff_mem, List.mem_append,
      List.mem_append, hforeign]
  rw [Path.suffix, Path.suffix, Path.name_append hp, Path.name_append hp, hcontains]

/-- Both copies have the same modules that may declare databases, unless just one of them lies in a
directory for foreign modules. -/
theorem connectionModules_copies (h : d.Copies root d' root') (ha : (area c).anchor = .relative)
    (hb : Path.within? [] (area c).parts = some base)
    (hs : (Glob.steps (pattern c)).toOption.all (Glob.stays base.length) = true)
    (hforeign : "node_modules" ∈ root ↔ "node_modules" ∈ root')
    (hd : d.get? (root ++ base) = some .directory) :
    (∃ e e', connectionModules d ⟨.root, root⟩ c = .error e ∧
        connectionModules d' ⟨.root, root'⟩ c = .error e') ∨
      ∃ ms : List (List String), (∀ parts ∈ ms, ∃ place, Path.within? [] parts = some place) ∧
        connectionModules d ⟨.root, root⟩ c = .ok (ms.map fun parts => ⟨.root, root ++ parts⟩) ∧
        connectionModules d' ⟨.root, root'⟩ c
          = .ok (ms.map fun parts => ⟨.root, root' ++ parts⟩) := by
  have hleft := resolve_directory h.left ha hb
  have hright := resolve_directory h.right ha hb
  cases hf : Glob.files d (root ++ base) (pattern c) with
  | error e =>
    cases hf' : Glob.files d' (root' ++ base) (pattern c) with
    | error e' =>
      exact Or.inl ⟨_, _, connectionModules_error (hleft ▸ hf), connectionModules_error (hright ▸ hf')⟩
    | ok found =>
      obtain ⟨ts, ht, -⟩ := Glob.files_eq_ok_iff.mp hf'
      rw [ht] at hs
      cases hf.symm.trans (Glob.files_copies h.symm ht hs hf')
  | ok found =>
    obtain ⟨ts, ht, -⟩ := Glob.files_eq_ok_iff.mp hf
    rw [ht] at hs
    have hf' := Glob.files_copies h ht hs hf
    refine Or.inr ⟨_, ?_, connectionModules_eq h.left ha hb hf, ?_⟩
    · intro parts hp
      obtain ⟨parts, hm, rfl⟩ := List.mem_map.mp (List.mem_filter.mp hp).1
      obtain ⟨-, place, hplace⟩ := Glob.mem_files_copies h ht hs hf hf' hm
      exact ⟨place, by rw [Path.within?_append, hb, Option.bind_some, hplace]⟩
    · rw [connectionModules_eq h.right ha hb hf']
      refine congrArg (fun ms : List (List String) => Except.ok (ms.map _))
        (List.filter_congr fun parts hp => ?_)
      obtain ⟨parts, hm, rfl⟩ := List.mem_map.mp hp
      have hne := Glob.ne_nil_of_mem_files hf hd hm
      exact isCandidate_append (List.append_ne_nil_of_right_ne_nil _ hne) hforeign.symm

end Scan

open Scan

variable {d d' : Disk} {root root' : List String} {c : Conventions}

/-- Both copies have a database area, or neither has. -/
theorem isDirectory_area_copies (h : d.Copies root d' root') (hc : isContained c = true) :
    (d.isDirectory (directory ⟨.root, root⟩ c)).toOption
      = (d'.isDirectory (directory ⟨.root, root'⟩ c)).toOption := by
  obtain ⟨ha, base, hb, -⟩ := of_isContained hc
  rw [directory_eq ha, directory_eq ha]
  exact h.isDirectory hb

/-- Both copies have the same databases, or those of neither can be told. -/
theorem findDatabases_copies (h : d.Copies root d' root') (hc : isContained c = true)
    (hforeign : "node_modules" ∈ root ↔ "node_modules" ∈ root') :
    (findDatabases d ⟨.root, root⟩ c).1.toOption
      = (findDatabases d' ⟨.root, root'⟩ c).1.toOption := by
  obtain ⟨ha, base, hb, hs⟩ := of_isContained hc
  rw [findDatabases_fst, findDatabases_fst]
  obtain ⟨e, e', hd, hd'⟩ | ⟨_ | _, hd, hd'⟩ := cases_of_toOption (isDirectory_area_copies h hc)
  · rw [hd, hd']
    rfl
  · rw [hd, hd']
  · have hplace := Volume.get?_of_isDirectory hd
    rw [resolve_directory h.left ha hb] at hplace
    rw [hd, hd']
    obtain ⟨e, e', hm, hm'⟩ | ⟨ms, hin, hm, hm'⟩ :=
      connectionModules_copies h ha hb hs hforeign hplace
    · rw [hm, hm']
      rfl
    · rw [hm, hm']
      dsimp only
      rw [collect_copies h hin]

end ConventionLint
