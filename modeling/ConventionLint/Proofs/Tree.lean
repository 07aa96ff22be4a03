import ConventionLint.Lint
import ConventionLint.Proofs.Paths

/-! What paths lead to, also through links, and the files that are found below a directory. -/
namespace ConventionLint

/-- Among pairs with different first parts a lookup finds just those that are there. -/
theorem lookup_eq_some_iff_mem {α β : Type} [BEq α] [LawfulBEq α] {l : List (α × β)} {a : α} {b : β}
    (h : (l.map (·.1)).Nodup) : l.lookup a = some b ↔ (a, b) ∈ l := by
  induction l with
  | nil => simp
  | cons x l ih =>
    obtain ⟨a', b'⟩ := x
    rw [List.map_cons, List.nodup_cons] at h
    rw [List.lookup_cons, List.mem_cons, Prod.mk.injEq]
    by_cases ha : a = a'
    · subst ha
      have hnot : (a, b) ∉ l := fun hm => h.1 (List.mem_map.mpr ⟨_, hm, rfl⟩)
      simp [hnot, eq_comm]
    · simp only [beq_false_of_ne ha, ha, false_and, false_or]
      exact ih h.2

namespace Path

variable {links : Links} {here own target parts : List String} {part : String}

/-- Links with places of their own, none of which lies behind another one, that lead to places which
are reached without links. -/
structure Straight (links : Links) : Prop where
  own : ∀ l ∈ links, l.1 ≠ [] ∧ (∀ s ∈ l.1, IsName s) ∧ Direct links l.1.dropLast
  target : ∀ l ∈ links, (∀ s ∈ l.2, IsName s) ∧ Direct links l.2
  unique : (links.map (·.1)).Nodup

instance (links : Links) : Decidable (Straight links) :=
  decidable_of_iff ((∀ l ∈ links, l.1 ≠ [] ∧ (∀ s ∈ l.1, IsName s) ∧ Direct links l.1.dropLast) ∧
    (∀ l ∈ links, (∀ s ∈ l.2, IsName s) ∧ Direct links l.2) ∧ (links.map (·.1)).Nodup)
    ⟨fun h => ⟨h.1, h.2.1, h.2.2⟩, fun h => ⟨h.1, h.2, h.3⟩⟩

theorem straight_nil : Straight [] := ⟨nofun, nofun, List.nodup_nil⟩

theorem Straight.names_step (h : Straight links) (hh : ∀ s ∈ here, IsName s)
    (hp : part = ".." ∨ IsName part) : ∀ s ∈ step links here part, IsName s := by
  unfold step
  split
  · exact fun s hs => hh s ((List.dropLast_sublist here).subset hs)
  · rename_i hup
    unfold land
    cases hl : links.lookup (here ++ [part]) with
    | some target => exact (h.target _ ((lookup_eq_some_iff_mem h.unique).mp hl)).1
    | none =>
      rw [Option.getD_none]
      exact List.forall_mem_append.mpr ⟨hh, by simpa using hp.resolve_left hup⟩

/-- A place that a path of names and steps up leads to is made of names. -/
theorem Straight.names_normalize (h : Straight links) (hp : ∀ s ∈ parts, s = ".." ∨ IsName s) :
    ∀ s ∈ normalize parts links, IsName s := by
  have hfold : ∀ {here}, (∀ s ∈ here, IsName s) → ∀ s ∈ parts.foldl (step links) here, IsName s := by
    induction parts with
    | nil => exact id
    | cons part parts ih =>
      rw [List.forall_mem_cons] at hp
      exact fun hh => ih hp.2 (h.names_step hh hp.1)
  exact hfold nofun

end Path

namespace Volume

variable {d : Volume} {directory parts : List String} {e : Entry} {p : Path}

/-- Where a path leads to is where its components lead. -/
theorem eq_of_walkFrom {text : String} {here parts result : List String}
    (h : d.walkFrom text here parts = .ok result) : result = parts.foldl (Path.step d.links) here := by
  induction parts generalizing here with
  | nil =>
    cases h
    rfl
  | cons part parts ih =>
    unfold walkFrom at h
    split at h
    · cases h
    · cases h
    · split at h
      · cases h
      · exact ih h

theorem find_eq (d : Volume) (p : Path) : d.find p =
    if p.isValid then
      match d.walkFrom p.toString [] (d.workingDirectory.join p).parts with
      | .error e => .error e
      | .ok result =>
        match d.get? result with
        | none => .error (.missing p.toString)
        | some e => .ok e
    else .error .invalidPath := by
  unfold find
  cases p.isValid with
  | false => rfl
  | true => cases d.walkFrom p.toString [] (d.workingDirectory.join p).parts <;> rfl

/-- What a path leads to is at the place that its components name, and the way to it is open. -/
theorem of_find (h : d.find p = .ok e) :
    d.walkFrom p.toString [] (d.workingDirectory.join p).parts = .ok (d.resolve p) ∧
      d.get? (d.resolve p) = some e := by
  rw [find_eq] at h
  cases hv : p.isValid with
  | false => simp [hv] at h
  | true =>
    rw [hv, if_pos rfl] at h
    cases hw : d.walkFrom p.toString [] (d.workingDirectory.join p).parts with
    | error e => simp [hw] at h
    | ok place =>
      have hplace : place = d.resolve p := eq_of_walkFrom hw
      rw [hw, hplace] at h
      rw [hplace]
      dsimp only at h
      cases hg : d.get? (d.resolve p) with
      | none => simp [hg] at h
      | some x =>
        rw [hg] at h
        cases h
        exact ⟨rfl, rfl⟩

theorem isValid_of_find (h : d.find p = .ok e) : p.isValid = true := by
  rw [find_eq] at h
  split at h
  · assumption
  · cases h

theorem leadsTo_eq_true_iff {kind : Entry → Bool} :
    d.leadsTo kind p = .ok true ↔ ∃ e, d.find p = .ok e ∧ kind e = true := by
  unfold leadsTo
  cases d.find p with
  | ok e => simp
  | error e => cases he : e.isAbsence <;> simp [he]

theorem isFile_eq_true_iff : d.isFile p = .ok true ↔ ∃ bytes, d.find p = .ok (.file bytes) := by
  rw [isFile, leadsTo_eq_true_iff]
  constructor
  · rintro ⟨_ | _, hf, hk⟩
    · exact ⟨_, hf⟩
    · cases hk
  · rintro ⟨bytes, hf⟩
    exact ⟨_, hf, rfl⟩

theorem isDirectory_eq_true_iff : d.isDirectory p = .ok true ↔ d.find p = .ok .directory := by
  rw [isDirectory, leadsTo_eq_true_iff]
  constructor
  · rintro ⟨_ | _, hf, hk⟩
    · cases hk
    · exact hf
  · intro hf
    exact ⟨_, hf, rfl⟩

theorem get?_of_isDirectory (h : d.isDirectory p = .ok true) :
    d.get? (d.resolve p) = some .directory :=
  (of_find (isDirectory_eq_true_iff.mp h)).2

/-- Every entry lies at a path of proper names that leads through no link, and no two at the same
one. -/
structure WellFormed (d : Volume) : Prop where
  names : ∀ e ∈ d.entries, e.1 ≠ [] ∧ ∀ s ∈ e.1, Path.IsName s
  unique : (d.entries.map (·.1)).Nodup
  direct : ∀ e ∈ d.entries, Path.Direct d.links e.1
  straight : Path.Straight d.links

instance (d : Volume) : Decidable d.WellFormed :=
  decidable_of_iff ((∀ e ∈ d.entries, e.1 ≠ [] ∧ ∀ s ∈ e.1, Path.IsName s) ∧
    (d.entries.map (·.1)).Nodup ∧ (∀ e ∈ d.entries, Path.Direct d.links e.1) ∧
    Path.Straight d.links) ⟨fun h => ⟨h.1, h.2.1, h.2.2.1, h.2.2.2⟩, fun h => ⟨h.1, h.2, h.3, h.4⟩⟩

theorem WellFormed.get?_eq_some_iff (h : d.WellFormed) (hp : parts ≠ []) :
    d.get? parts = some e ↔ (parts, e) ∈ d.entries := by
  rw [get?, if_neg hp, lookup_eq_some_iff_mem h.unique]

theorem filter_below?_eq_some_iff {place : List String} :
    (Path.below? directory place).filter (· ≠ []) = some parts ↔
      parts ≠ [] ∧ place = directory ++ parts := by
  rw [Option.filter_eq_some_iff, Path.below?_eq_some_iff, and_comm]
  simp

theorem mem_storedBelow : parts ∈ d.storedBelow directory ↔
    parts ≠ [] ∧ ∃ bytes, (directory ++ parts, .file bytes) ∈ d.entries := by
  unfold storedBelow
  rw [List.mem_filterMap]
  constructor
  · rintro ⟨⟨place, bytes | _⟩, hm, he⟩
    · obtain ⟨hn, rfl⟩ := filter_below?_eq_some_iff.mp he
      exact ⟨hn, bytes, hm⟩
    · cases he
  · rintro ⟨hn, bytes, hm⟩
    exact ⟨_, hm, filter_below?_eq_some_iff.mpr ⟨hn, rfl⟩⟩

theorem mem_linkedBelow : parts ∈ d.linkedBelow directory ↔
    parts ≠ [] ∧ ∃ target bytes, (directory ++ parts, target) ∈ d.links ∧
      d.get? target = some (.file bytes) := by
  unfold linkedBelow
  rw [List.mem_filterMap]
  constructor
  · rintro ⟨⟨place, target⟩, hm, he⟩
    split at he
    · rename_i bytes hg
      obtain ⟨hn, rfl⟩ := filter_below?_eq_some_iff.mp he
      exact ⟨hn, target, bytes, hm, hg⟩
    · cases he
  · rintro ⟨hn, target, bytes, hm, hg⟩
    refine ⟨_, hm, ?_⟩
    dsimp only
    rw [hg]
    exact filter_below?_eq_some_iff.mpr ⟨hn, rfl⟩

/-- Below a directory are the files that lie there and those that links lead to. -/
theorem mem_filesBelow : parts ∈ d.filesBelow directory ↔
    parts ∈ d.storedBelow directory ∨ parts ∈ d.linkedBelow directory := by
  unfold filesBelow
  rw [List.mem_mergeSort, List.mem_append]

/-- A file that lies below a directory is where its path says. -/
theorem WellFormed.resolve_stored (h : d.WellFormed) (hp : parts ∈ d.storedBelow directory) :
    d.resolve ⟨.root, directory ++ parts⟩ = directory ++ parts := by
  obtain ⟨-, bytes, hm⟩ := mem_storedBelow.mp hp
  rw [resolve, Path.resolve, Path.join_root]
  exact Path.normalize_of_direct (fun s hs => ((h.names _ hm).2 s hs).2.2.1) (h.direct _ hm)

/-- Without links every file below a directory is where its path says. -/
theorem WellFormed.resolve_filesBelow (h : d.WellFormed) (hl : d.links = [])
    (hp : parts ∈ d.filesBelow directory) :
    d.resolve ⟨.root, directory ++ parts⟩ = directory ++ parts := by
  rcases mem_filesBelow.mp hp with hp | hp
  · exact h.resolve_stored hp
  · obtain ⟨-, target, _, hm, -⟩ := mem_linkedBelow.mp hp
    rw [hl] at hm
    cases hm

/-- Below a directory, which no link leads to, files have proper names. -/
theorem WellFormed.of_filesBelow (h : d.WellFormed) (hp : parts ∈ d.filesBelow directory) :
    parts ≠ [] ∧ (∀ s ∈ directory ++ parts, Path.IsName s) ∧ Path.Direct d.links directory := by
  rcases mem_filesBelow.mp hp with hp | hp
  · obtain ⟨hn, bytes, hm⟩ := mem_storedBelow.mp hp
    exact ⟨hn, (h.names _ hm).2, (h.direct _ hm).of_front (List.prefix_append ..)⟩
  · obtain ⟨hn, target, bytes, hm, -⟩ := mem_linkedBelow.mp hp
    obtain ⟨-, hnames, hdirect⟩ := h.straight.own _ hm
    rw [List.dropLast_append_of_ne_nil hn] at hdirect
    exact ⟨hn, hnames, hdirect.of_front (List.prefix_append ..)⟩

theorem nodup_filterMap_below {α : Type} {l : List α} {place : α → List String}
    {keep : α → Option (List String)} (directory : List String) (hu : (l.map place).Nodup)
    (hk : ∀ x ∈ l, ∀ parts, keep x = some parts → place x = directory ++ parts) :
    (l.filterMap keep).Nodup := by
  refine List.pairwise_filterMap.mpr ((List.pairwise_map.mp hu).imp_of_mem ?_)
  intro x y hx hy hne p hp q hq hpq
  exact hne (by rw [hk x hx p hp, hk y hy q hq, hpq])

/-- Files below a directory are listed once. -/
theorem WellFormed.nodup_filesBelow (h : d.WellFormed) : (d.filesBelow directory).Nodup := by
  unfold filesBelow
  rw [(List.mergeSort_perm _ _).nodup_iff, List.nodup_append]
  refine ⟨nodup_filterMap_below directory h.unique ?_,
    nodup_filterMap_below directory h.straight.unique ?_, ?_⟩
  · rintro ⟨place, bytes | _⟩ - parts hk
    · exact (filter_below?_eq_some_iff.mp hk).2
    · cases hk
  · rintro ⟨place, target⟩ - parts hk
    split at hk
    · exact (filter_below?_eq_some_iff.mp hk).2
    · cases hk
  · -- no entry lies where a link is
    rintro parts hs _ hl rfl
    obtain ⟨-, bytes, hm⟩ := mem_storedBelow.mp hs
    obtain ⟨-, target, _, hl, -⟩ := mem_linkedBelow.mp hl
    exact h.direct _ hm _ hl (List.prefix_refl _)

end Volume

namespace Disk

variable {d : Disk} {directory parts : List String} {e : Entry} {p : Path}

@[simp] theorem resolve_eq (d : Disk) (p : Path) : d.resolve p = Path.resolve d.workingDirectory p := by
  rw [Volume.resolve, links_eq_nil]

/-- Every entry lies at a path of proper names, and no two at the same one. -/
structure WellFormed (d : Disk) : Prop where
  names : ∀ e ∈ d.entries, e.1 ≠ [] ∧ ∀ s ∈ e.1, Path.IsName s
  unique : (d.entries.map (·.1)).Nodup

instance (d : Disk) : Decidable d.WellFormed :=
  decidable_of_iff ((∀ e ∈ d.entries, e.1 ≠ [] ∧ ∀ s ∈ e.1, Path.IsName s) ∧
    (d.entries.map (·.1)).Nodup) ⟨fun h => ⟨h.1, h.2⟩, fun h => ⟨h.1, h.2⟩⟩

theorem WellFormed.volume (h : d.WellFormed) : d.toVolume.WellFormed where
  names := h.names
  unique := h.unique
  direct _ _ := by
    rw [links_eq_nil]
    exact Path.direct_nil
  straight := by
    rw [links_eq_nil]
    exact Path.straight_nil

theorem WellFormed.get?_eq_some_iff {parts : List String} {e : Entry} (h : d.WellFormed)
    (hp : parts ≠ []) : d.get? parts = some e ↔ (parts, e) ∈ d.entries :=
  h.volume.get?_eq_some_iff hp

theorem linkedBelow_eq_nil : d.linkedBelow directory = [] := by
  rw [Volume.linkedBelow, links_eq_nil, List.filterMap_nil]

theorem mem_filesBelow : parts ∈ d.filesBelow directory ↔
    parts ≠ [] ∧ ∃ bytes, (directory ++ parts, .file bytes) ∈ d.entries := by
  rw [Volume.mem_filesBelow, linkedBelow_eq_nil, Volume.mem_storedBelow]
  simp

theorem names_filesBelow (h : d.WellFormed) (hp : parts ∈ d.filesBelow directory) :
    ∀ s ∈ directory ++ parts, Path.IsName s :=
  (h.volume.of_filesBelow hp).2.1

end Disk

namespace Lint

variable {d : Volume} {directory : List String} {c : Conventions} {file : Path} {text : String}

theorem mem_projectFiles : file ∈ projectFiles d directory ↔
    ∃ parts, parts ∈ d.filesBelow directory ∧ isVisited parts = true ∧
      file = ⟨.root, directory ++ parts⟩ := by
  unfold projectFiles
  simp only [List.mem_map, List.mem_filter]
  constructor
  · rintro ⟨parts, ⟨hp, hv⟩, rfl⟩
    exact ⟨parts, hp, hv, rfl⟩
  · rintro ⟨parts, hp, hv, rfl⟩
    exact ⟨parts, ⟨hp, hv⟩, rfl⟩

theorem below_of_mem_projectFiles {parts : List String}
    (h : ⟨.root, directory ++ parts⟩ ∈ projectFiles d directory) :
    parts ∈ d.filesBelow directory := by
  obtain ⟨p, hp, -, he⟩ := mem_projectFiles.mp h
  rw [List.append_cancel_left (Path.mk.inj he).2]
  exact hp

/-- A file of a project is known to the rules by where it leads to, as seen from the project's
directory. -/
theorem relativePath?_contextOf {parts : List String} (h : d.WellFormed)
    (hp : parts ∈ d.filesBelow directory) :
    (contextOf ⟨.root, directory⟩ c d ⟨.root, directory ++ parts⟩ text).relativePath?
      = (Path.below? directory (d.resolve ⟨.root, directory ++ parts⟩)).map Path.render := by
  obtain ⟨-, hnames, hdirect⟩ := h.of_filesBelow hp
  have hfront : ∀ s ∈ directory, Path.IsName s := fun s hs => hnames s (List.mem_append_left _ hs)
  have hdirectory : Path.resolve d.workingDirectory ⟨.root, directory⟩ d.links = directory := by
    rw [Path.resolve, Path.join_root]
    exact Path.normalize_of_direct (fun s hs => (hfront s hs).2.2.1) hdirect
  dsimp only [Place.relativePath?, contextOf, Path.relative?]
  rw [Path.parse_toString hnames, Path.join_root, Path.isValid_names hnames,
    Path.isValid_names hfront, Bool.and_self, if_pos rfl, hdirectory]
  rfl

theorem relativePath?_of_links_nil {parts : List String} (h : d.WellFormed) (hl : d.links = [])
    (hp : parts ∈ d.filesBelow directory) :
    (contextOf ⟨.root, directory⟩ c d ⟨.root, directory ++ parts⟩ text).relativePath?
      = some (Path.render parts) := by
  rw [relativePath?_contextOf h hp, h.resolve_filesBelow hl hp, Path.below?_eq_some_iff.mpr rfl,
    Option.map_some]

end Lint

namespace Disk

variable {d : Disk} {directory : List String} {c : Conventions} {file : Path} {text : String}

/-- A file of a project is where its path says. -/
theorem resolve_of_mem_projectFiles (h : d.WellFormed) (hf : file ∈ Lint.projectFiles d directory)
    (workingDirectory : Path) : Path.resolve workingDirectory file = file.parts := by
  obtain ⟨parts, hp, -, rfl⟩ := Lint.mem_projectFiles.mp hf
  rw [Path.resolve, Path.join_root]
  exact Path.normalize_names (names_filesBelow h hp)

/-- Without links a file is known to the rules by the path below the project's directory. -/
theorem relativePath?_contextOf {parts : List String} (h : d.WellFormed)
    (hp : parts ∈ d.filesBelow directory) :
    (Lint.contextOf ⟨.root, directory⟩ c d ⟨.root, directory ++ parts⟩ text).relativePath?
      = some (Path.render parts) :=
  Lint.relativePath?_of_links_nil h.volume d.links_eq_nil hp

end Disk

end ConventionLint
