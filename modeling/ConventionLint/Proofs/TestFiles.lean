import ConventionLint.Proofs.Paths

/-! Test files and the files that they are for. A test file is told by the last component of its
path, and its implementation is found behind the last slash of the text. On a normal path both are the
same, so a test file is one that differs from its implementation, and is determined by it. -/
namespace ConventionLint

open Text

variable {front back name base extension cs : List Char} {separator : Char}
  {path rest marker : String}

namespace Text

theorem splitLast?_eq_none_iff : splitLast? separator cs = none ↔ separator ∉ cs := by
  refine ⟨fun h => ?_, splitLast?_of_not_mem⟩
  fun_induction splitLast? separator cs with
  | case1 => exact List.not_mem_nil
  | case2 => cases h
  | case3 => cases h
  | case4 c r hr hc ih => simp [Ne.symm hc, ih hr]

theorem splitLast?_eq_some_iff : splitLast? separator cs = some (front, back) ↔
    cs = front ++ separator :: back ∧ separator ∉ back := by
  constructor
  · intro h
    fun_induction splitLast? separator cs generalizing front with
    | case1 => cases h
    | case2 c r front' back' hr ih =>
      cases h
      obtain ⟨rfl, hback⟩ := ih hr
      exact ⟨rfl, hback⟩
    | case3 r hr =>
      cases h
      exact ⟨rfl, splitLast?_eq_none_iff.mp hr⟩
    | case4 => cases h
  · rintro ⟨rfl, hback⟩
    exact splitLast?_append hback front

/-- A text is cut at its last separator in one way only. -/
theorem append_cons_inj_of_not_mem {front' back' : List Char} (hb : separator ∉ back)
    (hb' : separator ∉ back') (h : front ++ separator :: back = front' ++ separator :: back') :
    front = front' ∧ back = back' := by
  have hs := splitLast?_append hb front
  rw [h, splitLast?_append hb'] at hs
  cases hs
  exact ⟨rfl, rfl⟩

theorem splitLast?_append_cons (front back : List Char) :
    splitLast? separator (front ++ separator :: back) =
      match splitLast? separator back with
      | some (head, name) => some (front ++ separator :: head, name)
      | none => some (front, back) := by
  induction front with
  | nil =>
    rw [List.nil_append, splitLast?]
    cases splitLast? separator back <;> simp
  | cons c front ih =>
    rw [List.cons_append, splitLast?, ih]
    cases splitLast? separator back <;> simp

theorem splitAt_append_cons (front r : List Char) :
    splitAt separator (front ++ separator :: r)
      = splitAt separator front ++ splitAt separator r := by
  induction front with
  | nil => simp [splitAt]
  | cons c front ih =>
    by_cases hc : c = separator
    · subst hc
      rw [List.cons_append, splitAt_cons_self, ih, splitAt_cons_self, List.cons_append]
    · obtain ⟨p, ps, hf, hcf⟩ := splitAt_cons_of_ne hc front
      rw [hcf, List.cons_append, splitAt, ih, hf]
      simp [hc]

end Text

/-! The last component of a path. -/
namespace Path

variable {parts : List String} {p : Path}

/-- The text of an absolute path: every component behind a slash. -/
def slashed (parts : List String) : List Char := parts.flatMap fun s => '/' :: s.toList

theorem slashed_eq (h : parts ≠ []) : slashed parts = '/' :: ("/".intercalate parts).toList := by
  induction parts with
  | nil => exact (h rfl).elim
  | cons s parts ih =>
    cases parts with
    | nil => simp [slashed]
    | cons t parts =>
      have ih := ih (by simp)
      rw [slashed, List.flatMap_cons, ← slashed, ih]
      simp [String.toList_intercalate]

/-- What follows the last slash is the last component, unless it is nothing or a single dot. -/
theorem name_parse_of_slash (hp : path.toList = front ++ '/' :: name) (hslash : '/' ∉ name)
    (hne : name ≠ []) (hdot : name ≠ ['.']) : (parse path).name = String.ofList name := by
  unfold Path.name parse
  rw [hp, splitAt_append_cons, splitAt_of_not_mem hslash, List.filter_append, List.map_append]
  simp [hne, hdot, List.getLastD_eq_getLast?]

/-- An absolute path without anything to resolve. -/
structure IsNormal (p : Path) : Prop where
  absolute : p.isAbsolute = true
  parts : ∀ t ∈ p.parts, t ≠ "" ∧ t ≠ "." ∧ t ≠ ".." ∧ '/' ∉ t.toList

theorem toList_toString_of_absolute (h : p.isAbsolute = true) (hp : p.parts ≠ []) :
    ∃ more, p.toString.toList = more ++ slashed p.parts := by
  obtain ⟨anchor, parts⟩ := p
  rw [slashed_eq hp]
  cases anchor with
  | relative => cases h
  | root => exact ⟨[], by simp [toString, Anchor.text]⟩
  | doubleRoot => exact ⟨['/'], by simp [toString, Anchor.text]⟩

/-- The last component of a normal path is what follows its last slash. -/
theorem IsNormal.exists_name (h : p.IsNormal) : ∃ front name,
    p.toString.toList = front ++ '/' :: name ∧ '/' ∉ name ∧
      (parse p.toString).name.toList = name := by
  rcases List.eq_nil_or_concat p.parts with hp | ⟨parts, last, hp⟩
  · obtain ⟨anchor, parts⟩ := p
    subst hp
    cases anchor with
    | relative => cases h.absolute
    | root => exact ⟨[], [], rfl, List.not_mem_nil, by decide⟩
    | doubleRoot => exact ⟨['/'], [], rfl, List.not_mem_nil, by decide⟩
  · obtain ⟨more, ht⟩ := toList_toString_of_absolute h.absolute (by simp [hp])
    obtain ⟨hne, hdot, -, hslash⟩ := h.parts last (by simp [hp])
    have htext : p.toString.toList = (more ++ slashed parts) ++ '/' :: last.toList := by
      rw [ht, hp, slashed, List.concat_eq_append, List.flatMap_append]
      simp [slashed]
    refine ⟨_, last.toList, htext, hslash, ?_⟩
    rw [name_parse_of_slash htext hslash, String.ofList_toList]
    · simpa using hne
    · exact fun hl => hdot (String.toList_inj.mp hl)

end Path

/-! The file that a test is for. -/

/-- A text with slashes for its backslashes. -/
def forward (cs : List Char) : List Char := cs.map fun c => if c = '\\' then '/' else c

theorem forward_of_not_mem (h : '\\' ∉ cs) : forward cs = cs := by
  have hid : forward cs = cs.map id := by
    refine List.map_congr_left fun c hc => if_neg ?_
    rintro rfl
    exact h hc
  rw [hid, List.map_id]

theorem directoryAndName_append {path rest : String} {front : List Char}
    (hp : path.toList = front ++ '/' :: rest.toList) :
    directoryAndName path
      = (forward front ++ '/' :: (directoryAndName rest).1, (directoryAndName rest).2) := by
  unfold directoryAndName
  dsimp only
  rw [hp, List.map_append, List.map_cons, ite_self, splitLast?_append_cons, forward]
  cases splitLast? '/' (rest.toList.map fun c => if c = '\\' then '/' else c) with
  | none => simp
  | some x => simp

/-- A file below a directory is for one below it, too, with slashes in the directory's text. -/
theorem toList_implementationFile_forward {path rest : String} {front : List Char}
    (hp : path.toList = front ++ '/' :: rest.toList) (marker : String) :
    (implementationFile path marker).toList
      = forward front ++ '/' :: (implementationFile rest marker).toList := by
  unfold implementationFile
  rw [directoryAndName_append hp]
  dsimp only
  cases markedStem? (directoryAndName rest).2 marker.toList with
  | none => simp
  | some x => simp

theorem toList_implementationFile_append {front : List Char} (hf : '\\' ∉ front)
    {path rest : String} (hp : path.toList = front ++ '/' :: rest.toList) (marker : String) :
    (implementationFile path marker).toList
      = front ++ '/' :: (implementationFile rest marker).toList := by
  rw [toList_implementationFile_forward hp, forward_of_not_mem hf]

/-- The stem of a marked name goes up to the last dot and ends with the marker. -/
theorem markedStem?_eq_some_iff {marker stem : List Char} :
    markedStem? name marker = some (stem, extension) ↔
      (name = stem ++ '.' :: extension ∧ '.' ∉ extension) ∧ marker <:+ stem := by
  rw [← splitLast?_eq_some_iff, ← before?_isSome_iff]
  constructor
  · intro h
    obtain ⟨⟨stem', extension'⟩, hs, hif⟩ := Option.bind_eq_some_iff.mp h
    dsimp only at hif
    split at hif
    · rename_i hb
      cases hif
      exact ⟨hs, hb⟩
    · cases hif
  · rintro ⟨hs, hb⟩
    simp [markedStem?, hs, hb]

/-- A name with the marker right before its extension. -/
structure IsTestName (marker base extension name : List Char) : Prop where
  text : name = base ++ marker ++ '.' :: extension
  dot : '.' ∉ extension

theorem IsTestName.markedStem? {marker : List Char} (h : IsTestName marker base extension name) :
    markedStem? name marker = some (base ++ marker, extension) :=
  markedStem?_eq_some_iff.mpr ⟨⟨h.text, h.dot⟩, List.suffix_append base marker⟩

theorem isSome_markedStem?_iff {marker : List Char} :
    (markedStem? name marker).isSome = true ↔
      ∃ base extension, IsTestName marker base extension name := by
  rw [Option.isSome_iff_exists]
  constructor
  · rintro ⟨⟨stem, extension⟩, h⟩
    obtain ⟨⟨hname, hdot⟩, base, rfl⟩ := markedStem?_eq_some_iff.mp h
    exact ⟨base, extension, hname, hdot⟩
  · rintro ⟨base, extension, h⟩
    exact ⟨_, h.markedStem?⟩

/-- The name of the file that a file of some name is for. -/
def testedName (marker name : List Char) : List Char :=
  match markedStem? name marker with
  | some (stem, extension) => dropMarker marker stem ++ '.' :: extension
  | none => name

theorem testedName_of_isTestName {marker : List Char} (hm : marker ≠ [])
    (h : IsTestName marker base extension name) :
    testedName marker name = base ++ '.' :: extension := by
  have hb : before? marker (base ++ marker) = some base := before?_eq_some_iff.mpr rfl
  have hd : dropMarker marker (base ++ marker) = base := by
    unfold dropMarker
    rw [if_neg (by simpa using hm), hb]
    rfl
  simp only [testedName, h.markedStem?, hd]

/-- The name is another one if and only if it is marked. -/
theorem testedName_ne_iff {marker : List Char} (hm : marker ≠ []) :
    testedName marker name ≠ name ↔ (markedStem? name marker).isSome = true := by
  constructor
  · intro h
    rw [Option.isSome_iff_ne_none]
    intro hn
    exact h (by rw [testedName, hn])
  · intro h
    obtain ⟨base, extension, h⟩ := isSome_markedStem?_iff.mp h
    rw [testedName_of_isTestName hm h, h.text]
    intro he
    have hl := congrArg List.length he
    have := List.length_pos_iff.mpr hm
    simp only [List.length_append] at hl
    omega

/-- Of a path only the name changes, and the backslashes. -/
theorem toList_implementationFile (hp : path.toList = front ++ '/' :: name) (hslash : '/' ∉ name)
    (hback : '\\' ∉ name) (marker : String) :
    (implementationFile path marker).toList
      = forward front ++ '/' :: testedName marker.toList name := by
  have hname : directoryAndName (String.ofList name) = ([], name) := by
    unfold directoryAndName
    dsimp only
    rw [String.toList_ofList, ← forward, forward_of_not_mem hback, splitLast?_of_not_mem hslash]
  have hrest : path.toList = front ++ '/' :: (String.ofList name).toList := by
    rwa [String.toList_ofList]
  rw [toList_implementationFile_forward hrest]
  unfold implementationFile testedName
  rw [hname]
  dsimp only
  cases markedStem? name marker.toList with
  | none => simp
  | some x => simp

/-- The text of a path without backslashes: what its last slash follows, and the name behind it, by
which it is told whether it is a test file. -/
structure Named (path : String) (front name : List Char) : Prop where
  text : path.toList = front ++ '/' :: name
  slash : '/' ∉ name
  component : (Path.parse path).name.toList = name
  plain : '\\' ∉ path.toList

namespace Named

theorem isTestFile_eq (h : Named path front name) (marker : String) :
    isTestFile path marker = (markedStem? name marker.toList).isSome := by
  rw [isTestFile, h.component]

theorem toList_implementationFile (h : Named path front name) (marker : String) :
    (implementationFile path marker).toList = front ++ '/' :: testedName marker.toList name := by
  have hplain := h.plain
  rw [h.text, List.mem_append, List.mem_cons, not_or, not_or] at hplain
  rw [ConventionLint.toList_implementationFile h.text h.slash hplain.2.2, forward_of_not_mem hplain.1]

theorem implementationFile_ne_iff (h : Named path front name) (hm : marker ≠ "") :
    implementationFile path marker ≠ path ↔ isTestFile path marker = true := by
  have hm' : marker.toList ≠ [] := by simpa using hm
  have he : implementationFile path marker = path ↔ testedName marker.toList name = name := by
    rw [← String.toList_inj, h.toList_implementationFile, h.text]
    simp
  rw [h.isTestFile_eq, ← testedName_ne_iff hm', Ne, he]

/-- The implementation of a test file tells its directory, and its name up to the marker. -/
theorem eq_of_implementationFile_eq {path' : String} {front' name' : List Char}
    (h : Named path front name) (h' : Named path' front' name') (hm : marker ≠ "")
    (ht : isTestFile path marker = true) (ht' : isTestFile path' marker = true)
    (he : implementationFile path marker = implementationFile path' marker) : path = path' := by
  have hm' : marker.toList ≠ [] := by simpa using hm
  rw [h.isTestFile_eq] at ht
  rw [h'.isTestFile_eq] at ht'
  obtain ⟨base, extension, hname⟩ := isSome_markedStem?_iff.mp ht
  obtain ⟨base', extension', hname'⟩ := isSome_markedStem?_iff.mp ht'
  have hslash := h.slash
  have hslash' := h'.slash
  have hl := congrArg String.toList he
  rw [h.toList_implementationFile, h'.toList_implementationFile, testedName_of_isTestName hm' hname,
    testedName_of_isTestName hm' hname'] at hl
  rw [hname.text] at hslash
  rw [hname'.text] at hslash'
  obtain ⟨rfl, hn⟩ := append_cons_inj_of_not_mem (by simp_all) (by simp_all) hl
  obtain ⟨rfl, rfl⟩ := append_cons_inj_of_not_mem hname.dot hname'.dot hn
  rw [← String.toList_inj, h.text, h'.text, hname.text, hname'.text]

end Named

theorem Path.IsNormal.named {p : Path} (h : p.IsNormal) (hb : '\\' ∉ p.toString.toList) :
    ∃ front name, Named p.toString front name := by
  obtain ⟨front, name, ht, hslash, hname⟩ := h.exists_name
  exact ⟨front, name, ht, hslash, hname, hb⟩

/-- A text without slashes of both kinds. -/
def IsFlat (s : String) : Prop := '/' ∉ s.toList ∧ '\\' ∉ s.toList

instance (s : String) : Decidable (IsFlat s) := inferInstanceAs (Decidable (_ ∧ _))

/-- A file with the marker before its extension is a test file, and its implementation is the file
without the marker. -/
theorem isTestFile_marked {d s e : String} (hm : IsFlat marker) (hs : IsFlat s) (he : IsFlat e)
    (hne : e ≠ "") (hdot : '.' ∉ e.toList) :
    isTestFile (d ++ "/" ++ s ++ marker ++ "." ++ e) marker = true ∧
      (marker ≠ "" → implementationFile (d ++ "/" ++ s ++ marker ++ "." ++ e) marker
        = String.ofList (forward d.toList) ++ "/" ++ s ++ "." ++ e) := by
  have htest : IsTestName marker.toList s.toList e.toList
      (s.toList ++ marker.toList ++ '.' :: e.toList) := ⟨rfl, hdot⟩
  have ht : (d ++ "/" ++ s ++ marker ++ "." ++ e).toList
      = d.toList ++ '/' :: (s.toList ++ marker.toList ++ '.' :: e.toList) := by simp
  have hslash : '/' ∉ s.toList ++ marker.toList ++ '.' :: e.toList := by
    simp [hs.1, hm.1, he.1]
  have hname : (Path.parse (d ++ "/" ++ s ++ marker ++ "." ++ e)).name.toList
      = s.toList ++ marker.toList ++ '.' :: e.toList := by
    rw [Path.name_parse_of_slash ht hslash (by simp), String.toList_ofList]
    intro hd
    have hl := congrArg List.length hd
    have hpos : 0 < e.toList.length := List.length_pos_iff.mpr (by simpa using hne)
    simp only [List.length_append, List.length_cons, List.length_nil] at hl
    omega
  constructor
  · rw [isTestFile, hname, htest.markedStem?]
    rfl
  · intro hmarker
    have hback : '\\' ∉ s.toList ++ marker.toList ++ '.' :: e.toList := by
      simp [hs.2, hm.2, he.2]
    rw [← String.toList_inj, toList_implementationFile ht hslash hback,
      testedName_of_isTestName (by simpa using hmarker) htest]
    simp

/-- Test files are those that differ from their implementation; adding the marker before the extension
of any name makes a test file with that implementation, where a directory is written with slashes; and
no two test files have the same one. -/
theorem testFiles_implementation (hm : marker ≠ "") (hflat : IsFlat marker) :
    (∀ p : Path, p.IsNormal → '\\' ∉ p.toString.toList →
      (isTestFile p.toString marker = true ↔ implementationFile p.toString marker ≠ p.toString)) ∧
    (∀ d s e : String, IsFlat s → IsFlat e → e ≠ "" → '.' ∉ e.toList →
      isTestFile (d ++ "/" ++ s ++ marker ++ "." ++ e) marker = true ∧
        implementationFile (d ++ "/" ++ s ++ marker ++ "." ++ e) marker
          = String.ofList (forward d.toList) ++ "/" ++ s ++ "." ++ e ∧
        ('\\' ∉ d.toList → implementationFile (d ++ "/" ++ s ++ marker ++ "." ++ e) marker
          = d ++ "/" ++ s ++ "." ++ e)) ∧
    ∀ p q : Path, p.IsNormal → q.IsNormal → '\\' ∉ p.toString.toList → '\\' ∉ q.toString.toList →
      isTestFile p.toString marker = true → isTestFile q.toString marker = true →
      implementationFile p.toString marker = implementationFile q.toString marker →
      p.toString = q.toString := by
  refine ⟨fun p hp hb => ?_, fun d s e hs he hne hdot => ?_, fun p q hp hq hb hb' ht ht' he => ?_⟩
  · obtain ⟨front, name, h⟩ := hp.named hb
    exact (h.implementationFile_ne_iff hm).symm
  · obtain ⟨htest, himpl⟩ := isTestFile_marked (d := d) hflat hs he hne hdot
    refine ⟨htest, himpl hm, fun hd => ?_⟩
    rw [himpl hm, forward_of_not_mem hd, String.ofList_toList]
  · obtain ⟨front, name, h⟩ := hp.named hb
    obtain ⟨front', name', h'⟩ := hq.named hb'
    exact h.eq_of_implementationFile_eq h' hm ht ht' he

/-- A marker with a dot inside, which overlaps itself in the name and stands in the directory. -/
theorem testFiles_implementation_overlap :
    (".t.t" ≠ "" ∧ IsFlat ".t.t" ∧ Path.IsNormal ⟨.root, ["a.t.t.b", "x.t.ts"]⟩) ∧
    (isTestFile "/a.t.t.b/x.t.ts" ".t.t" = true ↔
      implementationFile "/a.t.t.b/x.t.ts" ".t.t" ≠ "/a.t.t.b/x.t.ts") ∧
    isTestFile "/a.t.t.b/x.t.t.t.ts" ".t.t" = true ∧
    implementationFile "/a.t.t.b/x.t.t.t.ts" ".t.t" = "/a.t.t.b/x.t.ts" := by
  have hnormal : Path.IsNormal ⟨.root, ["a.t.t.b", "x.t.ts"]⟩ := ⟨rfl, by decide⟩
  have htext : Path.toString ⟨.root, ["a.t.t.b", "x.t.ts"]⟩ = "/a.t.t.b/x.t.ts" := by decide
  have hadded : "/a.t.t.b" ++ "/" ++ "x.t" ++ ".t.t" ++ "." ++ "ts" = "/a.t.t.b/x.t.t.t.ts" := by
    decide
  have hbase : "/a.t.t.b" ++ "/" ++ "x.t" ++ "." ++ "ts" = "/a.t.t.b/x.t.ts" := by decide
  obtain ⟨hiff, hmarked, -⟩ := @testFiles_implementation ".t.t" (by decide) (by decide)
  have hiff := hiff _ hnormal (by decide)
  obtain ⟨htest, -, himpl⟩ :=
    hmarked "/a.t.t.b" "x.t" "ts" (by decide) (by decide) (by decide) (by decide)
  have himpl := himpl (by decide)
  rw [htext] at hiff
  rw [hadded] at htest himpl
  rw [hbase] at himpl
  exact ⟨⟨by decide, by decide, hnormal⟩, hiff, htest, himpl⟩

end ConventionLint
