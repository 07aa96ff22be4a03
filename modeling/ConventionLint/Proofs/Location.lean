import ConventionLint.Proofs.Copies
import ConventionLint.Proofs.TestFiles
import ConventionLint.Proofs.Twins

/-! Where a project lies does not matter for what is reported on it, but for directories of foreign
modules above it. -/
namespace ConventionLint

open Text Run

namespace Text

variable {separator : Char}

theorem splitAt_append_of_head {front r : List Char} {parts : List (List Char)}
    (h : separator ∉ front) (hr : splitAt separator r = [] :: parts) :
    splitAt separator (front ++ r) = front :: parts := by
  induction front with
  | nil => exact hr
  | cons c front ih =>
    simp only [List.mem_cons, not_or] at h
    rw [List.cons_append, splitAt, ih h.2]
    simp [Ne.symm h.1]

end Text

namespace Path

variable {front parts : List String}

/-- The text of a file below a directory: that of the directory, and the path from there on. -/
theorem toList_toString_append (front : List String) (hp : parts ≠ []) :
    (toString ⟨.root, front ++ parts⟩).toList = slashed front ++ '/' :: (render parts).toList := by
  have ht : (toString ⟨.root, front ++ parts⟩).toList
      = '/' :: ("/".intercalate (front ++ parts)).toList := by
    simp [toString, Anchor.text]
  rw [ht, ← slashed_eq (List.append_ne_nil_of_right_ne_nil _ hp), slashed, List.flatMap_append,
    ← slashed, ← slashed, slashed_eq hp, render, if_neg hp]

theorem splitAt_slashed (h : ∀ s ∈ front, IsName s) (cs : List Char) :
    splitAt '/' (slashed front ++ '/' :: cs)
      = [] :: (front.map String.toList ++ splitAt '/' cs) := by
  induction front with
  | nil => simp [slashed, splitAt]
  | cons s front ih =>
    have ih := ih fun t ht => h t (List.mem_cons_of_mem _ ht)
    have hs := splitAt_append_of_head (h s (List.mem_cons_self ..)).2.2.2.1 ih
    rw [slashed, List.flatMap_cons, ← slashed, List.cons_append, List.cons_append,
      List.append_assoc, splitAt, hs]
    simp

/-- A text that starts with a directory is read as a path below it. -/
theorem parts_parse_slashed (h : ∀ s ∈ front, IsName s) {text rest : String}
    (ht : text.toList = slashed front ++ '/' :: rest.toList) :
    (parse text).parts = front ++ (parse rest).parts := by
  unfold parse
  rw [ht, splitAt_slashed h, List.filter_cons_of_neg (by simp), List.filter_append, filter_names h]
  simp

theorem isAbsolute_parse_slashed {text : String} {rest : List Char}
    (ht : text.toList = slashed front ++ '/' :: rest) : (parse text).isAbsolute = true := by
  rw [isAbsolute_parse, ht]
  cases front <;> simp [slashed]

end Path

/-! The text of a file below a directory. -/

theorem Path.not_mem_slashed {front : List String} (h : ∀ s ∈ front, '\\' ∉ s.toList) :
    '\\' ∉ slashed front := by
  intro hm
  obtain ⟨s, hs, hm⟩ := List.mem_flatMap.mp hm
  rcases List.mem_cons.mp hm with hm | hm
  · exact absurd hm (by decide)
  · exact h s hs hm

theorem Module.extension_append {head : List Char} {path rest : String}
    (hp : path.toList = head ++ '/' :: rest.toList) : extension path = extension rest := by
  have htake : ∀ l r : List Char,
      (l ++ '/' :: r).takeWhile (fun c => c ≠ '/' && c ≠ '\\')
        = l.takeWhile fun c => c ≠ '/' && c ≠ '\\' := by
    intro l r
    induction l with
    | nil => simp
    | cons c l ih =>
      rw [List.cons_append, List.takeWhile_cons, List.takeWhile_cons, ih]
  unfold extension
  dsimp only
  rw [hp, List.reverse_append, List.reverse_cons, List.append_assoc, List.singleton_append, htake]

namespace Lint

variable {d d' : Disk} {root root' parts : List String} {c : Conventions} {text : String}
  {pathOnly : Bool}

/-- The file that a test is for, as seen from the project. -/
def testedParts (c : Conventions) (parts : List String) : List String :=
  (Path.parse (implementationFile (Path.render parts) (c.setting .testMarker))).parts

theorem absolutePath_contextOf (h : d.WellFormed) (hp : parts ∈ d.filesBelow root) :
    (contextOf ⟨.root, root⟩ c d ⟨.root, root ++ parts⟩ text).absolutePath
      = ⟨.root, root ++ parts⟩ := by
  unfold Place.absolutePath contextOf
  dsimp only
  rw [Path.parse_toString (Disk.names_filesBelow h hp), Path.join_root]

/-- A test below a directory without backslashes is for a file below it, too. -/
theorem tested_contextOf (c : Conventions) (text : String) (h : d.WellFormed)
    (hp : parts ∈ d.filesBelow root) (hroot : ∀ s ∈ root, '\\' ∉ s.toList) :
    ∃ a, a ≠ .relative ∧ Rule.tested (contextOf ⟨.root, root⟩ c d ⟨.root, root ++ parts⟩ text)
      = ⟨a, root ++ testedParts c parts⟩ := by
  have hne : parts ≠ [] := (Disk.mem_filesBelow.mp hp).1
  have hnames : ∀ s ∈ root, Path.IsName s :=
    fun s hs => Disk.names_filesBelow h hp s (List.mem_append_left _ hs)
  have ht := toList_implementationFile_append (Path.not_mem_slashed hroot)
    (Path.toList_toString_append root hne) (c.setting .testMarker)
  have hparts := Path.parts_parse_slashed hnames ht
  have ha := Path.isAbsolute_parse_slashed ht
  unfold Rule.tested
  rw [absolutePath_contextOf h hp]
  change ∃ a, a ≠ .relative ∧ Path.parse (implementationFile (Path.toString ⟨.root, root ++ parts⟩)
    (c.setting .testMarker)) = ⟨a, root ++ testedParts c parts⟩
  generalize Path.parse (implementationFile (Path.toString ⟨.root, root ++ parts⟩)
    (c.setting .testMarker)) = p at hparts ha ⊢
  obtain ⟨a, ps⟩ := p
  cases hparts
  exact ⟨a, of_decide_eq_true ha, rfl⟩

/-- A file looks the same in both copies. -/
theorem twins_contextOf (c : Conventions) (text : String) (h : d.Copies root d' root')
    (hp : parts ∈ d.filesBelow root) :
    (contextOf ⟨.root, root⟩ c d ⟨.root, root ++ parts⟩ text).Twins
      (contextOf ⟨.root, root'⟩ c d' ⟨.root, root' ++ parts⟩ text) := by
  have hp' : parts ∈ d'.filesBelow root' := h.filesBelow ▸ hp
  have hne : parts ≠ [] := (Disk.mem_filesBelow.mp hp).1
  refine ⟨rfl, rfl, ?_, ?_, ?_, ?_⟩
  · rw [Disk.relativePath?_contextOf h.left.tree hp, Disk.relativePath?_contextOf h.right.tree hp']
  · unfold Place.fileName
    rw [absolutePath_contextOf h.left.tree hp, absolutePath_contextOf h.right.tree hp',
      Path.name_append hne, Path.name_append hne]
  · unfold Place.isTest isTestFile contextOf
    dsimp only
    rw [Path.parse_toString (Disk.names_filesBelow h.left.tree hp),
      Path.parse_toString (Disk.names_filesBelow h.right.tree hp'),
      Path.name_append hne, Path.name_append hne]
  · unfold Module.dialect? contextOf
    dsimp only
    rw [Module.extension_append (Path.toList_toString_append _ hne),
      Module.extension_append (Path.toList_toString_append _ hne)]

/-- Nothing that is looked up for a project lies outside of it: neither its databases nor what its
tests of functions are for. -/
structure Contained (d : Disk) (root : List String) (c : Conventions) : Prop where
  databases : Scan.isContained c = true
  tests : ∀ x ∈ d.entries, ∀ parts ∈ Path.below? root x.1, x.2 ≠ .directory →
    c.areaOf? (Path.render parts) = some .function →
      isTestFile (Path.render parts) (c.setting .testMarker) = true →
        (Path.within? [] (testedParts c parts)).isSome = true

instance (d : Disk) (root : List String) (c : Conventions) : Decidable (Contained d root c) :=
  decidable_of_iff (Scan.isContained c = true ∧ ∀ x ∈ d.entries, ∀ parts ∈ Path.below? root x.1,
    x.2 ≠ .directory → c.areaOf? (Path.render parts) = some .function →
      isTestFile (Path.render parts) (c.setting .testMarker) = true →
        (Path.within? [] (testedParts c parts)).isSome = true)
    ⟨fun h => ⟨h.1, h.2⟩, fun h => ⟨h.1, h.2⟩⟩

theorem isTest_contextOf (h : d.WellFormed) (hp : parts ∈ d.filesBelow root) :
    (contextOf ⟨.root, root⟩ c d ⟨.root, root ++ parts⟩ text).isTest
      = isTestFile (Path.render parts) (c.setting .testMarker) := by
  have hne : parts ≠ [] := (Disk.mem_filesBelow.mp hp).1
  have hnames : ∀ s ∈ parts, Path.IsName s :=
    fun s hs => Disk.names_filesBelow h hp s (List.mem_append_right _ hs)
  unfold Place.isTest isTestFile contextOf
  dsimp only
  rw [Path.parse_toString (Disk.names_filesBelow h hp), Path.name_append hne, Path.name,
    Path.parse_render hnames]

theorem content_copies (pathOnly : Bool) (h : d.Copies root d' root')
    (hp : parts ∈ d.filesBelow root) :
    (content pathOnly d ⟨.root, root ++ parts⟩).toOption
      = (content pathOnly d' ⟨.root, root' ++ parts⟩).toOption := by
  obtain ⟨-, bytes, hm⟩ := Disk.mem_filesBelow.mp hp
  have hn : ".." ∉ parts := h.left.tree.not_mem_of_entry hm
  unfold content
  cases pathOnly with
  | true => rfl
  | false => exact h.readText nofun nofun (Path.within?_of_not_mem hn [])

/-- The same rules are for a file in both copies. -/
theorem rulesFor_copies (h : d.Copies root d' root') (hp : parts ∈ d.filesBelow root) :
    rulesFor .builtin ⟨.root, root⟩ c pathOnly d ⟨.root, root ++ parts⟩ text
      = rulesFor .builtin ⟨.root, root'⟩ c pathOnly d' ⟨.root, root' ++ parts⟩ text := by
  unfold rulesFor Registry.select
  refine List.filter_congr fun r _ => ?_
  rw [(twins_contextOf c text h hp).governs r]

theorem isScanned_copies (h : d.Copies root d' root') (hp : parts ∈ d.filesBelow root) :
    isScanned .builtin ⟨.root, root⟩ c pathOnly d ⟨.root, root ++ parts⟩
      = isScanned .builtin ⟨.root, root'⟩ c pathOnly d' ⟨.root, root' ++ parts⟩ := by
  unfold isScanned
  obtain ⟨e, e', ht, ht'⟩ | ⟨text, ht, ht'⟩ :=
    cases_of_toOption (content_copies pathOnly h hp)
  · rw [ht, ht']
  · rw [ht, ht']
    dsimp only
    rw [rulesFor_copies h hp]

/-- What is found on a file is the same in both copies. -/
theorem diagnostics_findingsOn_copies (h : d.Copies root d' root') (hc : c.Consistent)
    (hin : Contained d root c) (hforeign : "node_modules" ∈ root ↔ "node_modules" ∈ root')
    (hroot : ∀ s ∈ root ++ root', '\\' ∉ s.toList) (hp : parts ∈ d.filesBelow root) :
    (findingsOn .builtin ⟨.root, root⟩ c pathOnly d ⟨.root, root ++ parts⟩).diagnostics
      = (findingsOn .builtin ⟨.root, root'⟩ c pathOnly d' ⟨.root, root' ++ parts⟩).diagnostics := by
  have hp' : parts ∈ d'.filesBelow root' := h.filesBelow ▸ hp
  unfold findingsOn
  obtain ⟨e, e', ht, ht'⟩ | ⟨text, ht, ht'⟩ :=
    cases_of_toOption (content_copies pathOnly h hp)
  · rw [ht, ht']
  · rw [ht, ht']
    dsimp only [Rule.shares]
    rw [← rulesFor_copies h hp]
    refine congrArg (List.mergeSort · _) (List.flatMap_congr fun r hr => ?_)
    have htwins := twins_contextOf c text h hp
    refine Rule.diagnostics_share_twins htwins hc (Registry.mem_select.mp hr).1
      (findDatabases_copies h hin.databases hforeign) ?_ ?_
    · rw [Disk.shownPath_contextOf h.left.tree hp, Disk.shownPath_contextOf h.right.tree hp']
    · intro ha hx
      rw [isTest_contextOf h.left.tree hp] at hx
      rw [Place.area?, Disk.relativePath?_contextOf h.left.tree hp] at ha
      obtain ⟨-, bytes, hm⟩ := Disk.mem_filesBelow.mp hp
      have hsome := hin.tests _ hm parts (Path.below?_eq_some_iff.mpr rfl) (by simp) ha hx
      obtain ⟨place, hplace⟩ := Option.isSome_iff_exists.mp hsome
      obtain ⟨a, hanchor, htested⟩ := tested_contextOf c text h.left.tree hp
        fun s hs => hroot s (List.mem_append_left _ hs)
      obtain ⟨a', hanchor', htested'⟩ := tested_contextOf c text h.right.tree hp'
        fun s hs => hroot s (List.mem_append_right _ hs)
      rw [htested, htested']
      exact h.readText hanchor hanchor' hplace

/-- The databases of a project are asked for by the same files in both copies. -/
theorem needsDatabases_copies (h : d.Copies root d' root') (hp : parts ∈ d.filesBelow root) :
    NeedsDatabases ⟨.root, root⟩ c d ⟨.root, root ++ parts⟩ ↔
      NeedsDatabases ⟨.root, root'⟩ c d' ⟨.root, root' ++ parts⟩ := by
  have hread : (d.readText ⟨.root, root ++ parts⟩).toOption
      = (d'.readText ⟨.root, root' ++ parts⟩).toOption := content_copies false h hp
  unfold NeedsDatabases
  obtain ⟨e, e', ht, ht'⟩ | ⟨text, ht, ht'⟩ := cases_of_toOption hread
  · rw [ht, ht']
    simp
  · rw [ht, ht']
    refine exists_congr fun text => and_congr_right fun _ => ?_
    have htwins := twins_contextOf c text h hp
    rw [htwins.area, htwins.isTest]

end Lint

variable {d d' : Disk} {root root' : List String} {c : Conventions} {pathOnly : Bool}

theorem absolute_of_holds (h : d.Holds root) : d.absolute ⟨.root, root⟩ = ⟨.root, root⟩ := by
  unfold Volume.absolute
  rw [h.resolve]

theorem isValid_of_holds (h : d.Holds root) :
    LintRequest.isValid { root := ⟨.root, root⟩, pathOnly } = true := by
  rw [LintRequest.isValid, Path.isValid_names h.names]
  rfl

/-- A run that stops in one copy stops in the other. -/
theorem stops_of_copies (h : d.Copies root d' root') (hc : Scan.isContained c = true)
    (hs : LintRequest.Stops { root := ⟨.root, root⟩, pathOnly } d c) :
    LintRequest.Stops { root := ⟨.root, root'⟩, pathOnly } d' c := by
  obtain ⟨hpath, hb, file, hf, hneeds⟩ := hs
  rw [absolute_of_holds h.left] at hb hneeds
  rw [LintRequest.paths, absolute_of_holds h.left] at hf
  obtain ⟨parts, hp, hv, rfl⟩ := Lint.mem_projectFiles.mp hf
  have hdirectory : d'.isDirectory (Scan.directory ⟨.root, root'⟩ c) = .ok true := by
    obtain ⟨e, _, hd, -⟩ | ⟨b, hd, hd'⟩ := cases_of_toOption (isDirectory_area_copies h hc)
    · cases hb.1.symm.trans hd
    · cases hb.1.symm.trans hd
      exact hd'
  refine ⟨hpath, ?_, ⟨.root, root' ++ parts⟩, ?_, ?_⟩
  · rw [absolute_of_holds h.right]
    exact ⟨hdirectory, hb.2⟩
  · rw [LintRequest.paths, absolute_of_holds h.right]
    exact Lint.mem_projectFiles.mpr ⟨parts, h.filesBelow ▸ hp, hv, rfl⟩
  · rw [absolute_of_holds h.right]
    exact (Lint.needsDatabases_copies h hp).mp hneeds

/-- The findings on all files are the same in both copies. -/
theorem gathered_copies (pathOnly : Bool) (h : d.Copies root d' root') (hc : c.Consistent)
    (hin : Lint.Contained d root c) (hforeign : "node_modules" ∈ root ↔ "node_modules" ∈ root')
    (hroot : ∀ s ∈ root ++ root', '\\' ∉ s.toList) :
    (Lint.gathered .builtin ⟨.root, root⟩ c pathOnly d
        (Lint.projectFiles d root)).findings.diagnostics
      = (Lint.gathered .builtin ⟨.root, root'⟩ c pathOnly d'
        (Lint.projectFiles d' root')).findings.diagnostics ∧
    (Lint.gathered .builtin ⟨.root, root⟩ c pathOnly d (Lint.projectFiles d root)).filesScanned
      = (Lint.gathered .builtin ⟨.root, root'⟩ c pathOnly d'
        (Lint.projectFiles d' root')).filesScanned := by
  unfold Lint.gathered Lint.projectFiles
  dsimp only
  rw [← h.filesBelow, List.flatMap_map, List.flatMap_map, List.countP_map, List.countP_map]
  constructor
  · refine List.flatMap_congr fun parts hp => ?_
    exact Lint.diagnostics_findingsOn_copies h hc hin hforeign hroot (List.mem_filter.mp hp).1
  · refine List.countP_congr fun parts hp => ?_
    dsimp only [Function.comp]
    rw [Lint.isScanned_copies h (List.mem_filter.mp hp).1]

/-- Where a project lies makes no difference to what is reported on it, if nothing is looked up for
it outside of it. -/
theorem lint_copies (h : d.Copies root d' root')
    (hforeign : "node_modules" ∈ root ↔ "node_modules" ∈ root')
    (hroot : ∀ s ∈ root ++ root', '\\' ∉ s.toList)
    (hin : ∀ c, Conventions.ofProject d ⟨.root, root⟩ none = .ok c → Lint.Contained d root c)
    (pathOnly : Bool) (start finish start' finish' : Data.Number) :
    (lint .builtin d { root := ⟨.root, root⟩, pathOnly } start finish).1.map
        (fun out => (out.diagnostics, out.filesScanned))
      = (lint .builtin d' { root := ⟨.root, root'⟩, pathOnly } start' finish').1.map
        fun out => (out.diagnostics, out.filesScanned) := by
  have hleft := absolute_of_holds h.left
  have hright := absolute_of_holds h.right
  have hvalid : LintRequest.isValid { root := ⟨.root, root⟩, pathOnly } = true :=
    isValid_of_holds h.left
  have hvalid' : LintRequest.isValid { root := ⟨.root, root'⟩, pathOnly } = true :=
    isValid_of_holds h.right
  cases hc : Conventions.ofProject d ⟨.root, root⟩ none with
  | error e =>
    have hc' := h.ofProject.symm.trans hc
    rw [← hleft] at hc
    rw [← hright] at hc'
    rw [lint_of_refused (Path.isValid_names h.left.names) hc,
      lint_of_refused (Path.isValid_names h.right.names) hc']
  | ok c =>
    have hin := hin c hc
    have hc' := h.ofProject.symm.trans hc
    have hdatabases := hin.databases
    rw [← hleft] at hc
    rw [← hright] at hc'
    by_cases hs : LintRequest.Stops { root := ⟨.root, root⟩, pathOnly } d c
    · rw [lint_of_stops hvalid hc hs, lint_of_stops hvalid' hc' (stops_of_copies h hdatabases hs)]
    · have hs' : ¬ LintRequest.Stops { root := ⟨.root, root'⟩, pathOnly } d' c :=
        fun hs' => hs (stops_of_copies h.symm hdatabases hs')
      obtain ⟨hdiagnostics, hscanned⟩ := gathered_copies pathOnly h
        (Conventions.ofProject_consistent hc) hin hforeign hroot
      rw [lint_of_not_stops hvalid hc hs, lint_of_not_stops hvalid' hc' hs']
      simp only [LintRequest.paths, hleft, hright, Lint.report, Except.map]
      rw [hdiagnostics, hscanned]

/-- A project at a place of a disk with nothing else on it. -/
def placed (root : List String) (tree : List (List String × Entry)) : Disk where
  entries := (Volume.ancestors (root ++ [""])).map (·, .directory)
    ++ tree.map fun x => (root ++ x.1, x.2)

/-- A project with a function whose portal has a database that a module of the project declares, and
a test of that function. -/
def strictProject : List (List String × Entry) :=
  [(["bakelint.yml"],
     .file ("strict_portal_database: true\n".toList.map fun c => .ofNat c.toNat)),
   (["src"], .directory), (["src", "database"], .directory), (["src", "database", "a"], .directory),
   (["src", "database", "a", "conn.a.ts"],
     .file ("export const aDb = 1;\n".toList.map fun c => .ofNat c.toNat)),
   (["src", "function"], .directory), (["src", "function", "fx.a.test.ts"], .file []),
   (["src", "function", "fx.a.ts"],
     .file ("export type TPortal = \x7b db: typeof aDb \x7d\n".toList.map fun c => .ofNat c.toNat))]

/-- The project is accepted, and all that is looked up for it lies inside. -/
theorem contained_strictProject :
    (∃ c, Conventions.ofProject (placed ["p"] strictProject) ⟨.root, ["p"]⟩ none = .ok c) ∧
      ∀ c, Conventions.ofProject (placed ["p"] strictProject) ⟨.root, ["p"]⟩ none = .ok c →
        Lint.Contained (placed ["p"] strictProject) ["p"] c := by
  have h : (Conventions.ofProject (placed ["p"] strictProject) ⟨.root, ["p"]⟩ none).toOption.any
      fun c => decide (Lint.Contained (placed ["p"] strictProject) ["p"] c) := by
    decide +kernel
  obtain ⟨c, hc, hin⟩ := exists_ok_of_any h
  refine ⟨⟨c, hc⟩, fun c' hc' => ?_⟩
  cases hc.symm.trans hc'
  exact of_decide_eq_true hin

theorem lint_copies_strictProject :
    (∃ c, Conventions.ofProject (placed ["p"] strictProject) ⟨.root, ["p"]⟩ none = .ok c ∧
      Lint.Contained (placed ["p"] strictProject) ["p"] c) ∧
    (placed ["p"] strictProject).Copies ["p"] (placed ["home", "q"] strictProject) ["home", "q"] ∧
    (lint .builtin (placed ["p"] strictProject) { root := ⟨.root, ["p"]⟩ } (.int 0) (.int 1)).1.map
        (fun out => (out.diagnostics, out.filesScanned))
      = (lint .builtin (placed ["home", "q"] strictProject) { root := ⟨.root, ["home", "q"]⟩ }
          (.int 0) (.int 2)).1.map fun out => (out.diagnostics, out.filesScanned) := by
  have h : (placed ["p"] strictProject).Copies ["p"] (placed ["home", "q"] strictProject)
      ["home", "q"] := by
    decide +kernel
  obtain ⟨⟨c, hc⟩, hin⟩ := contained_strictProject
  exact ⟨⟨c, hc, hin c hc⟩, h, lint_copies h (by decide) (by decide) hin false ..⟩

/-- Whether a rule that is called by its name speaks of a file of the project or not, as expected. -/
def isSpoken (r : Rule) (parts root : List String) (expected : Bool) : Bool :=
  let d := placed root strictProject
  let file : Path := ⟨.root, root ++ parts⟩
  (Conventions.ofProject d ⟨.root, root⟩ none).toOption.any fun c =>
    (c.setting .connectionMarker).toList.head? != some '/' &&
      (Lint.content false d file).toOption.any fun text =>
        (Registry.builtin.invoke d r.name
          (Lint.contextOf ⟨.root, root⟩ c d file text)).toOption.any fun o => o.isSome == expected

/-- A script of the project is visited. -/
theorem visited_strictProject {parts : List String} (root : List String)
    (hp : ∃ x ∈ strictProject, x.1 = parts ∧ x.2.isFile = true) (hv : Lint.isVisited parts = true)
    (hn : parts ≠ []) : parts ∈ (placed root strictProject).filesBelow root ∧
      ⟨.root, root ++ parts⟩ ∈ Lint.projectFiles (placed root strictProject) root := by
  obtain ⟨⟨place, bytes | _⟩, hm, rfl, hfile⟩ := hp
  · have hbelow : place ∈ (placed root strictProject).filesBelow root := Disk.mem_filesBelow.mpr
      ⟨hn, bytes, List.mem_append_right _ (List.mem_map.mpr ⟨_, hm, rfl⟩)⟩
    exact ⟨hbelow, Lint.mem_projectFiles.mpr ⟨_, hbelow, hv, rfl⟩⟩
  · cases hfile

/-- What a rule says by itself is what is reported. -/
theorem lint_of_isSpoken {r : Rule} {parts : List String} {expected : Bool}
    (hr : r ∈ Registry.builtin.entries)
    (hparts : ∃ x ∈ strictProject, x.1 = parts ∧ x.2.isFile = true)
    (hv : Lint.isVisited parts = true) (hn : parts ≠ [])
    (hd : (placed root strictProject).Holds root) (h : isSpoken r parts root expected = true) :
    ∃ out, (lint .builtin (placed root strictProject) { root := ⟨.root, root⟩ } (.int 0)
        (.int 0)).1 = .ok out ∧
      ((∃ message, ⟨r.name, message, Path.render parts⟩ ∈ out.diagnostics) ↔ expected = true) := by
  obtain ⟨c, hc, h⟩ := exists_ok_of_any h
  rw [Bool.and_eq_true, bne_iff_ne] at h
  obtain ⟨text, ht, hi⟩ := exists_ok_of_any h.2
  obtain ⟨o, hi, ho⟩ := exists_ok_of_any hi
  obtain ⟨hp, hf⟩ := visited_strictProject root hparts hv hn
  have habsolute := absolute_of_holds hd
  have hstops : ¬ LintRequest.Stops { root := ⟨.root, root⟩ } (placed root strictProject) c :=
    fun hs => h.1 hs.2.1.2
  have hshown : Rule.shownPath (Lint.contextOf ⟨.root, root⟩ c (placed root strictProject)
      ⟨.root, root ++ parts⟩ text) = Path.render parts := Disk.shownPath_contextOf hd.tree hp
  refine ⟨_, lint_of_not_stops (isValid_of_holds hd) (habsolute.symm ▸ hc) hstops, ?_⟩
  simp only [LintRequest.paths, habsolute]
  have hfound : ∀ message, ⟨r.name, message, Path.render parts⟩
      ∈ (Lint.report .builtin (.int 0) (.int 0) (Lint.gathered .builtin ⟨.root, root⟩ c false
        (placed root strictProject) (Lint.projectFiles (placed root strictProject)
          root))).diagnostics ↔ o = some message := by
    intro message
    have halone := Lint.alone_of_links_nil hd.tree.volume (Disk.links_eq_nil _) hf
    refine (Lint.mem_report_iff text hd.tree.volume hf halone ?_).trans ?_
    · exact hshown.symm
    rw [← hshown]
    refine (Lint.mem_findingsOn_iff_invoke Registry.named_builtin hr (by simp) ht).trans ?_
    rw [hi]
    simp
  rw [← eq_of_beq ho, Option.isSome_iff_exists]
  exact exists_congr hfound

/-- The project is reported on in another way in a directory of foreign modules, where its databases are
not found, and in one with a backslash in its name, where what its test is for is not found. -/
theorem lint_copies_foreign_backslash :
    (∀ c, Conventions.ofProject (placed ["p"] strictProject) ⟨.root, ["p"]⟩ none = .ok c →
      Lint.Contained (placed ["p"] strictProject) ["p"] c) ∧
    ((placed ["p"] strictProject).Copies ["p"] (placed ["node_modules", "p"] strictProject)
      ["node_modules", "p"] ∧
    ∃ out out' message,
      (lint .builtin (placed ["p"] strictProject) { root := ⟨.root, ["p"]⟩ } (.int 0) (.int 0)).1
        = .ok out ∧
      (lint .builtin (placed ["node_modules", "p"] strictProject)
        { root := ⟨.root, ["node_modules", "p"]⟩ } (.int 0) (.int 0)).1 = .ok out' ∧
      ⟨"function-portal-database", message, "src/function/fx.a.ts"⟩ ∉ out.diagnostics ∧
      ⟨"function-portal-database", message, "src/function/fx.a.ts"⟩ ∈ out'.diagnostics) ∧
    (placed ["p"] strictProject).Copies ["p"] (placed ["p\\q"] strictProject) ["p\\q"] ∧
    ∃ out out' message,
      (lint .builtin (placed ["p"] strictProject) { root := ⟨.root, ["p"]⟩ } (.int 0) (.int 0)).1
        = .ok out ∧
      (lint .builtin (placed ["p\\q"] strictProject) { root := ⟨.root, ["p\\q"]⟩ } (.int 0)
        (.int 0)).1 = .ok out' ∧
      ⟨"function-test-imports-testing-db", message, "src/function/fx.a.test.ts"⟩ ∈ out.diagnostics ∧
      ⟨"function-test-imports-testing-db", message, "src/function/fx.a.test.ts"⟩
        ∉ out'.diagnostics := by
  refine ⟨contained_strictProject.2, ⟨by decide +kernel, ?_⟩, by decide +kernel, ?_⟩
  · have hr : Rule.functionPortalDatabase ∈ Registry.builtin.entries := by simp [Registry.builtin]
    obtain ⟨out, hl, hsilent⟩ := @lint_of_isSpoken ["p"] _ ["src", "function", "fx.a.ts"] false hr
      (by decide +kernel) (by decide) (by simp) (by decide +kernel) (by decide +kernel)
    obtain ⟨out', hl', hspeaks⟩ := @lint_of_isSpoken ["node_modules", "p"] _
      ["src", "function", "fx.a.ts"] true hr (by decide +kernel) (by decide) (by simp)
      (by decide +kernel) (by decide +kernel)
    obtain ⟨message, hm⟩ := hspeaks.mpr rfl
    exact ⟨out, out', message, hl, hl', fun hm => Bool.false_ne_true (hsilent.mp ⟨message, hm⟩), hm⟩
  · have hr : Rule.functionTestImportsTestingDb ∈ Registry.builtin.entries := by
      simp [Registry.builtin]
    obtain ⟨out, hl, hspeaks⟩ := @lint_of_isSpoken ["p"] _ ["src", "function", "fx.a.test.ts"] true hr
      (by decide +kernel) (by decide) (by simp) (by decide +kernel) (by decide +kernel)
    obtain ⟨out', hl', hsilent⟩ := @lint_of_isSpoken ["p\\q"] _
      ["src", "function", "fx.a.test.ts"] false hr (by decide +kernel) (by decide) (by simp)
      (by decide +kernel) (by decide +kernel)
    obtain ⟨message, hm⟩ := hspeaks.mpr rfl
    exact ⟨out, out', message, hl, hl', hm, fun hm => Bool.false_ne_true (hsilent.mp ⟨message, hm⟩)⟩

end ConventionLint
