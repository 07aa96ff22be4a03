import ConventionLint.Proofs.DatabaseArea
import ConventionLint.Proofs.RelativePaths
import ConventionLint.Proofs.TestFiles

/-! Names of files in the database area. A name is accepted by its start and its end, which may overlap
in the name; where every start ends in its only dot, that gives no other names than the two patterns. -/
namespace ConventionLint

open Text

/-- A text whose only dot is its last character. -/
def EndsInOnlyDot (front : String) : Prop := ∃ g, front.toList = g ++ ['.'] ∧ '.' ∉ g

/-- A file name without its last dot and what follows; a name without a dot stays whole. -/
def IsStemOf (stem name : String) : Prop :=
  (∃ extension, name.toList = stem.toList ++ '.' :: extension ∧ '.' ∉ extension) ∨
    ('.' ∉ name.toList ∧ stem = name)

/-- A stem that names a database: behind a start, or behind a start, a kind and a dot. -/
def Follows (database stem front : String) : Prop :=
  stem = front ++ database ∨ ∃ kind, stem = front ++ kind ++ "." ++ database

/-- A file of the database area, in a directory of the area or below one. -/
structure Place.InDirectory (p : Place) (database : String) : Prop where
  area : p.area? = some .database
  name : '/' ∉ database.toList
  path : ∃ path rest, p.relativePath? = some path ∧
    p.conventions.Decomposes .database path (database ++ "/" ++ rest)

theorem Place.InDirectory.areaParts {p : Place} {database : String} (h : p.InDirectory database) :
    ∃ part parts, p.areaParts = database :: part :: parts := by
  obtain ⟨path, rest, hpath, hbelow⟩ := h.path
  obtain ⟨path', below, hpath', hrel, hbelow', -⟩ := area?_eq_some_iff.mp h.area
  cases hpath.symm.trans hpath'
  rw [Conventions.decomposes_iff] at hbelow hbelow'
  have hlist : below.toList = database.toList ++ '/' :: rest.toList := by
    rw [← List.append_cancel_left (hbelow.symm.trans hbelow')]
    simp
  obtain ⟨part, parts, hparts⟩ :=
    List.exists_cons_of_ne_nil (show splitAt '/' rest.toList ≠ [] from splitAt_ne_nil)
  refine ⟨String.ofList part, parts.map String.ofList, ?_⟩
  rw [Place.areaParts, hrel, Option.getD_some, hlist, splitAt_append h.name, hparts]
  simp

namespace Rule

variable {database front stem name : String} {x : Context} {d : Volume} {s : RunState}

theorem isStemOf_iff : IsStemOf stem name ↔ stem = Rule.stem name := by
  unfold IsStemOf Rule.stem
  cases hs : splitLast? '.' name.toList with
  | none =>
    have hnot := splitLast?_eq_none_iff.mp hs
    constructor
    · rintro (⟨extension, hname, -⟩ | ⟨-, rfl⟩)
      · rw [hname] at hnot
        simp at hnot
      · rfl
    · rintro rfl
      exact .inr ⟨hnot, rfl⟩
  | some r =>
    obtain ⟨head, extension⟩ := r
    obtain ⟨hname, hext⟩ := splitLast?_eq_some_iff.mp hs
    constructor
    · rintro (⟨extension', hname', hext'⟩ | ⟨hnot, -⟩)
      · obtain ⟨hhead, -⟩ := append_cons_inj_of_not_mem hext' hext (hname'.symm.trans hname)
        rw [← hhead]
        exact String.ofList_toList.symm
      · rw [hname] at hnot
        simp at hnot
    · rintro rfl
      exact .inl ⟨extension, by rw [String.toList_ofList, hname], hext⟩

theorem prefix_of_isStemOf (h : IsStemOf stem name) : stem.toList <+: name.toList := by
  rcases h with ⟨extension, hname, -⟩ | ⟨-, rfl⟩
  · exact ⟨_, hname.symm⟩
  · exact List.prefix_rfl

theorem prefix_of_follows (h : Follows database stem front) : front.toList <+: stem.toList := by
  rcases h with rfl | ⟨kind, rfl⟩
  · rw [String.toList_append]
    exact List.prefix_append ..
  · simp only [String.toList_append, List.append_assoc]
    exact List.prefix_append ..

/-- An only dot at the end is the first one, too. -/
theorem eq_of_only_dot {g u r : List Char} (hg : '.' ∉ g) (h : g ++ ['.'] = u ++ '.' :: r) :
    g = u ∧ r = [] := by
  rcases List.append_eq_append_iff.mp h with ⟨a, rfl, ha⟩ | ⟨a, rfl, ha⟩
  · cases a with
    | nil => simpa using ha.symm
    | cons c a => simp at ha
  · cases a with
    | nil => simpa using ha.symm
    | cons c a =>
      cases ha
      simp at hg

/-- The start and the end of a stem overlap at most in the dot that both have. -/
theorem follows_of_overlap (hf : EndsInOnlyDot front) (hfront : front.toList <+: stem.toList)
    (hback : '.' :: database.toList <:+ stem.toList) : Follows database stem front := by
  obtain ⟨g, hg, hdot⟩ := hf
  obtain ⟨t, ht⟩ := hfront
  obtain ⟨u, hu⟩ := hback
  have hwhole : ∀ kind : List Char, stem.toList = front.toList ++ kind ++ '.' :: database.toList →
      Follows database stem front := by
    intro kind hk
    refine .inr ⟨String.ofList kind, String.toList_inj.mp ?_⟩
    simp [hk]
  rcases List.append_eq_append_iff.mp (hu.trans ht.symm) with ⟨a, hfa, hda⟩ | ⟨a, rfl, -⟩
  · cases a with
    | nil => exact hwhole [] (by rw [← hu, hfa]; simp)
    | cons c a =>
      -- the end starts inside the start, at its only dot
      obtain ⟨rfl, hdb⟩ := List.cons.inj hda
      obtain ⟨rfl, rfl⟩ := eq_of_only_dot hdot (hg.symm.trans hfa)
      refine .inl (String.toList_inj.mp ?_)
      rw [String.toList_append, ← hu, hg]
      simp
  · exact hwhole a hu.symm

theorem namesDatabase_iff (hf : EndsInOnlyDot front) :
    namesDatabase database stem front = true ↔ Follows database stem front := by
  unfold namesDatabase
  rw [Bool.or_eq_true, decide_eq_true_iff, Bool.and_eq_true, startsWith, after?_isSome_iff,
    before?_isSome_iff]
  constructor
  · rintro (h | ⟨hfront, hback⟩)
    · exact .inl h
    · exact follows_of_overlap hf hfront hback
  · intro h
    refine h.imp_right fun ⟨kind, hk⟩ => ⟨prefix_of_follows h, ?_⟩
    rw [hk, String.toList_append, String.toList_append]
    exact ⟨(front ++ kind).toList, by simp⟩

/-- A rule that is for a file and needs no more than it answers is evaluated to its answer. -/
theorem exec_evaluate_of_check {r : Rule} {o : Outcome} (hg : r.governs x.toPlace = true)
    (hc : r.check x = pure o) : ((r.evaluate x).exec d s).1 = .ok o := by
  rw [exec_evaluate_fst, exec_outcome_fst, if_pos hg, hc, Run.exec_pure]

theorem evaluate_databaseFileName (ha : x.area? = some .database) (ht : x.isTest = false)
    (h : ∃ front ∈ x.conventions.databaseFronts, front.toList <+: x.fileName.toList) :
    ((databaseFileName.evaluate x).exec d s).1 = .ok .pass := by
  have hg : databaseFileName.governs x.toPlace = true :=
    (governs_database_iff (by simp [Registry.builtin]) rfl).mpr ⟨ha, ht⟩
  have hany : (x.conventions.databaseFronts.any fun f => startsWith f x.fileName) = true := by
    simpa [startsWith, after?_isSome_iff] using h
  rw [exec_evaluate_of_check hg rfl]
  simp only [hany, Outcome.passIf, if_true]

/-- In a directory the rule always has an answer. -/
theorem evaluate_databaseFileNameMatchesDirectory (hx : x.InDirectory database)
    (ht : x.isTest = false) :
    ∃ message, ((databaseFileNameMatchesDirectory.evaluate x).exec d s).1 = .ok (.passIf
      (x.conventions.databaseFronts.any (namesDatabase database (Rule.stem x.fileName))) message) := by
  have hg : databaseFileNameMatchesDirectory.governs x.toPlace = true :=
    (governs_database_iff (by simp [Registry.builtin]) rfl).mpr ⟨hx.area, ht⟩
  obtain ⟨part, parts, hparts⟩ := hx.areaParts
  obtain ⟨message, hm⟩ : ∃ message, databaseFileNameMatchesDirectory.check x = pure (.passIf
      (x.conventions.databaseFronts.any (namesDatabase database (Rule.stem x.fileName))) message) := by
    unfold databaseFileNameMatchesDirectory onPath
    simp only [hparts]
    exact ⟨_, rfl⟩
  exact ⟨message, exec_evaluate_of_check hg hm⟩

/-- A file in a directory of the database area passes exactly if its name has one of the two patterns,
and fails otherwise; a name that passes also has the start that every file of the area has to have. -/
theorem databaseFileName_patterns (hx : x.InDirectory database) (ht : x.isTest = false)
    (hf : ∀ front ∈ x.conventions.databaseFronts, EndsInOnlyDot front) (d : Volume) (s : RunState) :
    (((databaseFileNameMatchesDirectory.evaluate x).exec d s).1 = .ok .pass ↔
      ∃ stem, IsStemOf stem x.fileName ∧
        ∃ front ∈ x.conventions.databaseFronts, Follows database stem front) ∧
    (((databaseFileNameMatchesDirectory.evaluate x).exec d s).1 = .ok .pass ∨
      ∃ message, ((databaseFileNameMatchesDirectory.evaluate x).exec d s).1 = .ok (.failed message)) ∧
    (((databaseFileNameMatchesDirectory.evaluate x).exec d s).1 = .ok .pass →
      ((databaseFileName.evaluate x).exec d s).1 = .ok .pass) := by
  obtain ⟨message, hm⟩ := evaluate_databaseFileNameMatchesDirectory (d := d) (s := s) hx ht
  have hany : x.conventions.databaseFronts.any (namesDatabase database (Rule.stem x.fileName)) = true ↔
      ∃ stem, IsStemOf stem x.fileName ∧
        ∃ front ∈ x.conventions.databaseFronts, Follows database stem front := by
    simp only [isStemOf_iff, exists_eq_left, List.any_eq_true]
    refine exists_congr fun front => and_congr_right fun hfront => ?_
    exact namesDatabase_iff (hf front hfront)
  have hpass : ((databaseFileNameMatchesDirectory.evaluate x).exec d s).1 = .ok .pass ↔
      ∃ stem, IsStemOf stem x.fileName ∧
        ∃ front ∈ x.conventions.databaseFronts, Follows database stem front := by
    rw [hm, ← hany, Outcome.passIf]
    split
    · simp_all
    · simp_all [Outcome.failed]
  refine ⟨hpass, ?_, fun h => ?_⟩
  · rw [hm, Outcome.passIf]
    split
    · exact .inl rfl
    · exact .inr ⟨message, rfl⟩
  · obtain ⟨stem, hstem, front, hfront, hfollows⟩ := hpass.mp h
    exact evaluate_databaseFileName hx.area ht
      ⟨front, hfront, (prefix_of_follows hfollows).trans (prefix_of_isStemOf hstem)⟩

/-- A file whose start and end share a dot, in a directory with a dot in its name. -/
def overlappingFile : Context where
  directory := ⟨.root, ["p"]⟩
  file := "src/database/v1.a/conn.v1.a.ts"
  conventions := {}
  workingDirectory := ⟨.root, []⟩
  content := ""

theorem databaseFileName_patterns_overlappingFile : overlappingFile.InDirectory "v1.a" ∧
    overlappingFile.isTest = false ∧ Follows "v1.a" "conn.v1.a" "conn." ∧
    ((databaseFileNameMatchesDirectory.evaluate overlappingFile).exec {}
      (.fresh overlappingFile.directory {})).1 = .ok .pass ∧
    ((databaseFileName.evaluate overlappingFile).exec {}
      (.fresh overlappingFile.directory {})).1 = .ok .pass := by
  have hin : overlappingFile.InDirectory "v1.a" :=
    { area := by decide +kernel
      name := by decide
      path := ⟨"src/database/v1.a/conn.v1.a.ts", "conn.v1.a.ts", by decide +kernel,
        Conventions.decomposes_iff.mpr (by decide)⟩ }
  have htest : overlappingFile.isTest = false := by decide +kernel
  have hfronts : ∀ front ∈ overlappingFile.conventions.databaseFronts, EndsInOnlyDot front := by
    intro front hfront
    change front ∈ ["conn.", "schema.", "auth."] at hfront
    simp only [List.mem_cons, List.not_mem_nil, or_false] at hfront
    rcases hfront with rfl | rfl | rfl
    · exact ⟨['c', 'o', 'n', 'n'], by decide, by decide⟩
    · exact ⟨['s', 'c', 'h', 'e', 'm', 'a'], by decide, by decide⟩
    · exact ⟨['a', 'u', 't', 'h'], by decide, by decide⟩
  obtain ⟨hiff, -, hname⟩ := databaseFileName_patterns hin htest hfronts {}
    (.fresh overlappingFile.directory {})
  have hfollows : Follows "v1.a" "conn.v1.a" "conn." := .inl (by decide)
  have hstem : IsStemOf "conn.v1.a" overlappingFile.fileName :=
    .inl ⟨['t', 's'], by decide +kernel, by decide⟩
  have hpass := hiff.mpr ⟨"conn.v1.a", hstem, "conn.", by decide, hfollows⟩
  exact ⟨hin, htest, hfollows, hpass, hname hpass⟩

end Rule

end ConventionLint
