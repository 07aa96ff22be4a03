import ConventionLint.Proofs.Glob
import ConventionLint.Proofs.Overwrite
import ConventionLint.Proofs.Scan
import ConventionLint.Proofs.Text

/-! Modules that declare databases lie where the database area is, as long as no earlier area is
there too. -/
namespace ConventionLint

open Text

variable {d : Volume} {root : Path} {c : Conventions}

namespace Catalog

/-- A catalog has no variables but those that were put into it. -/
theorem mem_insertAll {vs : List DatabaseVariable} {k k' : Catalog}
    (h : (k.insertAll vs).1 = .ok k') {v : DatabaseVariable} (hv : v ∈ k'.entries) :
    v ∈ k.entries ∨ v ∈ vs := by
  induction vs generalizing k with
  | nil =>
    cases h
    exact Or.inl hv
  | cons w vs ih =>
    unfold insertAll at h
    split at h
    · rcases ih h with hm | hm
      · exact Or.inl hm
      · exact Or.inr (List.mem_cons_of_mem _ hm)
    · split at h
      · cases h
      · rcases ih h with hm | hm
        · rcases List.mem_append.mp hm with hm | hm
          · exact Or.inl hm
          · rw [List.mem_singleton.mp hm]
            exact Or.inr (List.mem_cons_self ..)
        · exact Or.inr (List.mem_cons_of_mem _ hm)

theorem mem_ofList {vs : List DatabaseVariable} {k : Catalog} (h : (ofList vs).1 = .ok k)
    {v : DatabaseVariable} (hv : v ∈ k.entries) : v ∈ vs := by
  rcases mem_insertAll h hv with hm | hm
  · cases hm
  · exact hm

end Catalog

namespace Scan

theorem modulePath_of_variablesOf {path : String} {content : Except ReadError String}
    {v : DatabaseVariable} (hv : v ∈ (variablesOf c path content).1) : v.modulePath = path := by
  unfold variablesOf at hv
  split at hv
  · cases hv
  · split at hv
    · cases hv
    · obtain ⟨n, -, rfl⟩ := List.mem_map.mp hv
      rfl

/-- A variable is one of those that some module declares. -/
theorem mem_collect {ps : List Path} {found : List DatabaseVariable}
    (h : (collect d root c ps).1 = .ok found) {v : DatabaseVariable} (hv : v ∈ found) :
    ∃ p ∈ ps, ∃ path, relativeTo root p = .ok path ∧ v ∈ (variablesOf c path (d.readText p)).1 := by
  induction ps generalizing found with
  | nil =>
    cases h
    cases hv
  | cons p ps ih =>
    unfold collect at h
    cases hp : relativeTo root p with
    | error e =>
      rw [hp] at h
      cases h
    | ok path =>
      rw [hp] at h
      rcases hm : collect d root c ps with ⟨_ | more, log⟩ <;> rw [hm] at h ih
      · cases h
      · cases h
        rcases List.mem_append.mp hv with hv | hv
        · exact ⟨p, List.mem_cons_self .., path, hp, hv⟩
        · obtain ⟨q, hq, hpath⟩ := ih rfl hv
          exact ⟨q, List.mem_cons_of_mem _ hq, hpath⟩

theorem relativeTo_below (root : Path) (parts : List String) :
    relativeTo root (root.below parts) = .ok (Path.render parts) := by
  unfold relativeTo
  dsimp only [Path.below]
  rw [Path.below?_eq_some_iff.mpr rfl]
  exact if_pos rfl

/-- The directory of a relative area lies below the project. -/
theorem directory_eq_below (h : (Path.parse (c.setting .databaseArea)).anchor = .relative) :
    directory root c = root.below (Path.parse (c.setting .databaseArea)).parts := by
  unfold directory Path.join
  rw [if_neg (by simp [Path.isAbsolute, h])]
  rfl

theorem mem_connectionModules {ps : List Path} (h : connectionModules d root c = .ok ps) {p : Path}
    (hp : p ∈ ps) : ∃ found, Glob.files d (d.resolve (directory root c))
        (c.setting .connectionMarker ++ "*") = .ok found ∧
      ∃ parts ∈ found, p = (directory root c).below parts := by
  unfold connectionModules at h
  dsimp only at h
  split at h
  · cases h
  · rename_i found hf
    cases h
    obtain ⟨parts, hparts, rfl⟩ := List.mem_map.mp (List.mem_filter.mp hp).1
    exact ⟨found, hf, parts, hparts, rfl⟩

/-- A module that is searched declares a variable. -/
def Declares (d : Volume) (root : Path) (c : Conventions) (file : Path) (v : DatabaseVariable) :
    Prop :=
  ∃ modules, connectionModules d root c = .ok modules ∧ file ∈ modules ∧
    v ∈ (variablesOf c v.modulePath (d.readText file)).1

end Scan

/-- What a scan gives, apart from its log. -/
theorem findDatabases_fst (d : Volume) (root : Path) (c : Conventions) :
    (findDatabases d root c).1 =
      match d.isDirectory (Scan.directory root c) with
      | .error e => .error (.file e)
      | .ok false => .ok {}
      | .ok true =>
        match Scan.connectionModules d root c with
        | .error e => .error e
        | .ok modules =>
          match (Scan.collect d root c modules).1 with
          | .error e => .error e
          | .ok found =>
            match (Catalog.ofList found).1 with
            | .error e => .error (.collision e)
            | .ok k => .ok k := by
  unfold findDatabases
  dsimp only
  rcases d.isDirectory (Scan.directory root c) with e | _ | _
  · rfl
  · rfl
  · dsimp only
    cases Scan.connectionModules d root c with
    | error e => rfl
    | ok modules =>
      dsimp only
      rcases Scan.collect d root c modules with ⟨_ | found, log⟩
      · rfl
      · dsimp only
        rcases Catalog.ofList found with ⟨_ | k, more⟩ <;> rfl

/-- Where a variable of the catalog comes from. -/
theorem exists_of_mem_findDatabases {k : Catalog} (h : (findDatabases d root c).1 = .ok k)
    {v : DatabaseVariable} (hv : v ∈ k.entries) : d.isDirectory (Scan.directory root c) = .ok true ∧
      ∃ modules, Scan.connectionModules d root c = .ok modules ∧ ∃ p ∈ modules, ∃ path,
        Scan.relativeTo root p = .ok path ∧ v ∈ (Scan.variablesOf c path (d.readText p)).1 := by
  rw [findDatabases_fst] at h
  split at h
  · cases h
  · cases h
    cases hv
  · rename_i hd
    split at h
    · cases h
    · rename_i modules hm
      split at h
      · cases h
      · rename_i found hl
        split at h
        · cases h
        · rename_i k' ho
          cases h
          exact ⟨hd, modules, hm, Scan.mem_collect hl (Catalog.mem_ofList ho hv)⟩

/-- A variable of the catalog is declared by a module that is found below the database area's
directory. -/
theorem mem_findDatabases {k : Catalog} (h : (findDatabases d root c).1 = .ok k)
    {v : DatabaseVariable} (hv : v ∈ k.entries) :
    d.isDirectory (Scan.directory root c) = .ok true ∧ ∃ found,
      Glob.files d (d.resolve (Scan.directory root c)) (c.setting .connectionMarker ++ "*")
        = .ok found ∧
      ∃ parts ∈ found, parts ≠ [] ∧
        Scan.relativeTo root ((Scan.directory root c).below parts) = .ok v.modulePath ∧
        Scan.Declares d root c ((Scan.directory root c).below parts) v := by
  obtain ⟨hd, modules, hm, p, hp, path, hpath, hv⟩ := exists_of_mem_findDatabases h hv
  obtain ⟨found, hf, parts, hparts, rfl⟩ := Scan.mem_connectionModules hm hp
  have hmodule := Scan.modulePath_of_variablesOf hv
  rw [← hmodule] at hpath hv
  exact ⟨hd, found, hf, parts, hparts,
    Glob.ne_nil_of_mem_files hf (Volume.get?_of_isDirectory hd) hparts, hpath, modules, hm, hp, hv⟩

/-- Without links, what a pattern that never goes up finds has the path of its place. -/
theorem Glob.names_of_mem_files {directory parts : List String} {pattern : String}
    {found : List (List String)} (hd : d.WellFormed) (hl : d.links = [])
    (hup : ".." ∉ (Path.parse pattern).parts) (h : files d directory pattern = .ok found)
    (hp : parts ∈ found) (hn : parts ≠ []) : ∀ s ∈ parts, Path.IsName s := by
  obtain ⟨ts, ht, -⟩ := files_eq_ok_iff.mp h
  obtain ⟨g, hg, rfl, bytes, hfile⟩ := (mem_files h ht).mp hp
  obtain ⟨q, rfl⟩ := below_of_mem_select hl (ne_up_of_steps ht hup) hg
  have hentry := (hd.get?_eq_some_iff (by simp_all [Found.below])).mp hfile
  intro s hs
  exact (hd.names _ hentry).2 s (List.mem_append_right _ hs)

theorem Path.toList_intercalate_append {front back : List String} (hf : front ≠ [])
    (hb : back ≠ []) :
    ("/".intercalate (front ++ back)).toList
      = ("/".intercalate front).toList ++ '/' :: ("/".intercalate back).toList := by
  induction front with
  | nil => exact (hf rfl).elim
  | cons s front ih =>
    cases front with
    | nil =>
      cases back with
      | nil => exact (hb rfl).elim
      | cons t back => simp [String.toList_intercalate]
    | cons t front =>
      have ih := ih (by simp)
      simp only [String.toList_intercalate, List.cons_append, List.map_cons,
        List.intercalate_cons_cons] at ih ⊢
      rw [ih]
      simp

namespace Conventions

/-- An area that is written as its components, relative to the project, with one slash between two
of them and without going up; slashes at the end do not count. -/
structure PlainArea (area : String) : Prop where
  relative : (Path.parse area).anchor = .relative
  ne_nil : (Path.parse area).parts ≠ []
  downward : ".." ∉ (Path.parse area).parts
  written : dropEnd '/' area.toList = ("/".intercalate (Path.parse area).parts).toList

instance (area : String) : Decidable (PlainArea area) :=
  decidable_of_iff ((Path.parse area).anchor = .relative ∧ (Path.parse area).parts ≠ [] ∧
    ".." ∉ (Path.parse area).parts ∧
    dropEnd '/' area.toList = ("/".intercalate (Path.parse area).parts).toList)
    ⟨fun h => ⟨h.1, h.2.1, h.2.2.1, h.2.2.2⟩, fun h => ⟨h.1, h.2, h.3, h.4⟩⟩

theorem PlainArea.names {area : String} (h : PlainArea area)
    (hv : (Path.parse area).isValid = true) : ∀ s ∈ (Path.parse area).parts, Path.IsName s := by
  intro s hs
  obtain ⟨he, hdot, hslash⟩ := Path.mem_parts_parse hs
  have hup : s ≠ ".." := by
    rintro rfl
    exact h.downward hs
  exact ⟨he, hdot, hup, hslash, Path.isValid_iff.mp hv s hs⟩

/-- A path that starts with the root of an area. -/
def LiesIn (c : Conventions) (a : Area) (path : String) : Prop := c.areaFront a <+: path.toList

instance (a : Area) (path : String) : Decidable (c.LiesIn a path) :=
  inferInstanceAs (Decidable (_ <+: _))

theorem isSome_after?_areaFront (c : Conventions) (a : Area) (path : String) :
    (after? (c.areaFront a) path.toList).isSome = decide (c.LiesIn a path) := by
  rw [Bool.eq_iff_iff, after?_isSome_iff, decide_eq_true_iff, LiesIn]

/-- The areas that are looked up before an area. -/
def earlier (a : Area) : List Area := Area.all.takeWhile (· ≠ a)

/-- The area of a path is the first one that it lies in. -/
theorem areaOf?_eq_some_iff_first {a : Area} {path : String} : c.areaOf? path = some a ↔
    c.LiesIn a path ∧ ∀ b ∈ earlier a, ¬ c.LiesIn b path := by
  simp only [areaOf?, Area.all, List.find?_cons, isSome_after?_areaFront]
  cases a <;>
    by_cases hf : c.LiesIn .function path <;> by_cases hc : c.LiesIn .controller path <;>
    by_cases hd : c.LiesIn .database path <;> by_cases hi : c.LiesIn .api path <;>
    simp [earlier, Area.all, hf, hc, hd, hi]

/-- A path in the database area has that area, or an earlier one that it lies in too. -/
theorem areaOf?_of_liesIn {path : String} (h : c.LiesIn .database path) :
    ∃ a ∈ [Area.function, .controller, .database], c.areaOf? path = some a := by
  simp only [areaOf?, Area.all, List.find?_cons, isSome_after?_areaFront, h, decide_true]
  by_cases hf : c.LiesIn .function path
  · exact ⟨.function, by simp, by simp [hf]⟩
  by_cases hc : c.LiesIn .controller path
  · exact ⟨.controller, by simp, by simp [hf, hc]⟩
  · exact ⟨.database, by simp, by simp [hf, hc]⟩

/-- What lies below the directory of a plain area lies in the area. -/
theorem liesIn_of_plainArea {a : Area} (h : PlainArea (c.areaRoot a)) {parts : List String}
    (hp : parts ≠ []) :
    c.LiesIn a (Path.render ((Path.parse (c.areaRoot a)).parts ++ parts)) := by
  unfold LiesIn areaFront
  rw [Path.render, if_neg (List.append_ne_nil_of_left_ne_nil h.ne_nil parts), h.written,
    Path.toList_intercalate_append h.ne_nil hp]
  exact ⟨("/".intercalate parts).toList, by simp⟩

end Conventions

/-- The rules of the database area are for its sources. -/
theorem Rule.governs_database_iff {r : Rule} {p : Place} (hr : r ∈ Registry.builtin.entries)
    (ha : r.area = "database") :
    r.governs p = true ↔ p.area? = some .database ∧ p.isTest = false := by
  have ht : ∀ r ∈ Registry.builtin.entries, r.area = "database" → r.targets = .source := by decide
  have hn : ∀ a : Area, a.name = "database" ↔ a = .database := by
    intro a
    cases a <;> decide
  have hg : ¬ "database" = generalArea := by decide
  simp [governs, ha, ht r hr ha, hg, hn]

open Conventions

/-- A module that declares a known database has the first area of the function, the controller and
the database area that its path lies in, as far as the database area is written plainly. It is at that
path, and the rules of the database area are for it if that is its area and it is no test, as far as
neither the marker nor a link leads elsewhere. -/
theorem area_of_known_module {k : Catalog} {v : DatabaseVariable} (hd : d.WellFormed)
    (hplain : PlainArea (c.setting .databaseArea)) (hk : (findDatabases d root c).1 = .ok k)
    (hv : v ∈ k.entries) :
    ∃ a ∈ [Area.function, .controller, .database], c.areaOf? v.modulePath = some a ∧
      (c.LiesIn a v.modulePath ∧ ∀ b ∈ earlier a, ¬ c.LiesIn b v.modulePath) ∧
      (a = .database ↔ ∀ b ∈ earlier .database, ¬ c.LiesIn b v.modulePath) ∧
      (".." ∉ (Path.parse (c.setting .connectionMarker ++ "*")).parts → d.links = [] →
        Scan.Declares d root c (root.join (Path.parse v.modulePath)) v ∧
        ∀ p : Place, p.directory = root → p.conventions = c →
          p.workingDirectory = d.workingDirectory → p.links = d.links →
          p.absolutePath = root.join (Path.parse v.modulePath) →
            p.relativePath? = some v.modulePath ∧
            ∀ r ∈ Registry.builtin.entries, r.area = "database" →
              (r.governs p = true ↔ a = .database ∧ p.isTest = false)) := by
  obtain ⟨hdir, found, hfound, parts, hparts, hne, hpath, hdeclares⟩ := mem_findDatabases hk hv
  rw [Scan.directory_eq_below hplain.relative] at hdir hfound hpath hdeclares
  rw [← Path.below_append, Scan.relativeTo_below] at hpath
  rw [← Path.below_append] at hdeclares
  have hmodule := (Except.ok.inj hpath).symm
  have hlies : c.LiesIn .database v.modulePath := by
    rw [hmodule]
    exact liesIn_of_plainArea (a := .database) hplain hne
  obtain ⟨a, ha, harea⟩ := areaOf?_of_liesIn hlies
  have hfirst := areaOf?_eq_some_iff_first.mp harea
  refine ⟨a, ha, harea, hfirst, ?_, fun hup hl => ?_⟩
  · constructor
    · rintro rfl
      exact hfirst.2
    · intro hnone
      have hdatabase := areaOf?_eq_some_iff_first.mpr ⟨hlies, hnone⟩
      exact Option.some.inj (harea.symm.trans hdatabase)
  · have hvalid : (root.below (Path.parse (c.setting .databaseArea)).parts).isValid = true :=
      Volume.isValid_of_find (Volume.isDirectory_eq_true_iff.mp hdir)
    have hroot : root.isValid = true :=
      Path.isValid_iff.mpr fun t ht => Path.isValid_iff.mp hvalid t (List.mem_append_left _ ht)
    have harea' : (Path.parse (c.setting .databaseArea)).isValid = true :=
      Path.isValid_iff.mpr fun t ht => Path.isValid_iff.mp hvalid t (List.mem_append_right _ ht)
    have hnames : ∀ s ∈ (Path.parse (c.setting .databaseArea)).parts ++ parts, Path.IsName s := by
      intro s hs
      rcases List.mem_append.mp hs with hs | hs
      · exact hplain.names harea' s hs
      · exact Glob.names_of_mem_files hd hl hup hfound hparts hne s hs
    have hfile : root.join (Path.parse v.modulePath)
        = root.below ((Path.parse (c.setting .databaseArea)).parts ++ parts) := by
      rw [hmodule, Path.parse_render hnames, Path.join_relative]
    refine ⟨hfile ▸ hdeclares, fun p hp hc hw hlinks habsolute => ?_⟩
    have hrel : p.relativePath? = some v.modulePath := by
      rw [Place.relativePath?, hlinks, hl, hw, hp, hmodule]
      rw [Place.absolutePath, hp, hfile] at habsolute
      exact Path.relative?_join hroot hnames habsolute
    have hplace : p.area? = some a := by
      rw [Place.area?, hrel, Option.bind_some, hc, harea]
    refine ⟨hrel, fun r hr hdatabase => ?_⟩
    rw [Rule.governs_database_iff hr hdatabase, hplace, Option.some.injEq]

/-- A project with one module that declares a database. -/
def connectedProject : Disk where
  entries :=
    [(["p"], .directory), (["p", "src"], .directory), (["p", "src", "database"], .directory),
     (["p", "src", "database", "a"], .directory),
     (["p", "src", "database", "a", "conn.b.ts"],
       .file ("export const aDb = 1;\n".toList.map fun c => .ofNat c.toNat))]

/-- That module, as the rules see it. -/
def connectionPlace (c : Conventions) : Place where
  directory := ⟨.root, ["p"]⟩
  file := "src/database/a/conn.b.ts"
  conventions := c
  workingDirectory := ⟨.root, []⟩

theorem area_of_known_module_connectedProject : ∃ k v,
    (findDatabases connectedProject ⟨.root, ["p"]⟩ {}).1 = .ok k ∧ v ∈ k.entries ∧
      ({} : Conventions).areaOf? v.modulePath = some .database ∧
      Scan.Declares connectedProject ⟨.root, ["p"]⟩ {}
        ⟨.root, ["p", "src", "database", "a", "conn.b.ts"]⟩ v ∧
      (connectionPlace {}).relativePath? = some v.modulePath ∧
      Rule.databaseFileNameMatchesDirectory.governs (connectionPlace {}) = true := by
  have hd : connectedProject.WellFormed := by decide
  have h : (findDatabases connectedProject ⟨.root, ["p"]⟩ {}).1.toOption.any fun k =>
      k.entries.any fun v => v.modulePath = "src/database/a/conn.b.ts" := by
    decide +kernel
  obtain ⟨k, hk, h⟩ := exists_ok_of_any h
  obtain ⟨v, hv, hpath⟩ := List.any_eq_true.mp h
  rw [decide_eq_true_iff] at hpath
  obtain ⟨a, -, harea, -, hfirst, hplace⟩ := area_of_known_module hd.volume (by decide) hk hv
  obtain ⟨hdeclares, hplace⟩ := hplace (by decide +kernel) rfl
  have hdatabase : a = .database := by
    rw [hfirst, hpath]
    decide
  have hfile : Path.join ⟨.root, ["p"]⟩ (Path.parse v.modulePath)
      = ⟨.root, ["p", "src", "database", "a", "conn.b.ts"]⟩ := by
    rw [hpath]
    decide
  rw [hfile] at hdeclares hplace
  obtain ⟨hrel, hgoverns⟩ := hplace (connectionPlace {}) rfl rfl rfl rfl (by decide)
  subst hdatabase
  exact ⟨k, v, hk, hv, harea, hdeclares, hrel,
    (hgoverns _ (by simp [Registry.builtin]) rfl).mpr ⟨rfl, by decide⟩⟩

/-- If the function area holds the database area, no rule of the latter is for its modules. -/
theorem area_of_covered_module : ∃ c k v,
    Conventions.ofValue (.map [(.text "function_area", .text "src")]) = .ok c ∧
      (findDatabases connectedProject ⟨.root, ["p"]⟩ c).1 = .ok k ∧ v ∈ k.entries ∧
      c.areaOf? v.modulePath = some .function ∧
      (connectionPlace c).relativePath? = some v.modulePath ∧
      ∀ r ∈ Registry.builtin.entries, r.area = "database" →
        r.governs (connectionPlace c) = false := by
  have h : (Conventions.ofValue (.map [(.text "function_area", .text "src")])).toOption.any fun c =>
      c.areaOf? "src/database/a/conn.b.ts" = some .function &&
        (connectionPlace c).relativePath? = some "src/database/a/conn.b.ts" &&
        (findDatabases connectedProject ⟨.root, ["p"]⟩ c).1.toOption.any fun k =>
          k.entries.any fun v => v.modulePath = "src/database/a/conn.b.ts" := by
    decide +kernel
  obtain ⟨c, hc, h⟩ := exists_ok_of_any h
  rw [Bool.and_eq_true, Bool.and_eq_true, decide_eq_true_iff, decide_eq_true_iff] at h
  obtain ⟨⟨harea, hrel⟩, h⟩ := h
  obtain ⟨k, hk, h⟩ := exists_ok_of_any h
  obtain ⟨v, hv, hpath⟩ := List.any_eq_true.mp h
  rw [decide_eq_true_iff] at hpath
  refine ⟨c, k, v, hc, hk, hv, hpath ▸ harea, hpath ▸ hrel, ?_⟩
  intro r hr hdatabase
  have harea' : (connectionPlace c).area? = some .function := by
    rw [Place.area?, hrel]
    exact harea
  rw [Bool.eq_false_iff, ne_eq, Rule.governs_database_iff hr hdatabase, harea']
  nofun

end ConventionLint
