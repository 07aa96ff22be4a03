import Mathlib.Data.List.Basic
import Mathlib.Logic.Relation
import ConventionLint.Rule.Basic
import ConventionLint.Proofs.Blank
import ConventionLint.Proofs.Line
import ConventionLint.Proofs.Paths

/-! Paths as they are spelled, and the relative paths and areas that they get. A spelling is normalised
by rules on its components; what is shown of a file and which area it lies in depend on the normal forms
only. -/
namespace ConventionLint

open Text

namespace Path

variable {parts q dir file rest : List String} {part d s r : String}

/-- The parts of a text between its slashes, empty ones and dots included. -/
def components (s : String) : List String := (splitAt '/' s.toList).map String.ofList

/-- The components of a file that is seen from a directory. -/
def seenFrom (d s : String) : List String :=
  if s.toList.head? = some '/' then components s else components d ++ components s

/-- A component that leads one level down. -/
def IsProper (part : String) : Prop := part ≠ "" ∧ part ≠ "." ∧ part ≠ ".."

instance (part : String) : Decidable (IsProper part) := inferInstanceAs (Decidable (_ ∧ _ ∧ _))

/-- The rules by which a spelling gets shorter: empty components and single dots are dropped, two dots
take away what leads to them, and at the top they lead nowhere. -/
inductive Reduces : List String → List String → Prop where
  | skip (front back : List String) {part : String} (h : part = "" ∨ part = ".") :
      Reduces (front ++ part :: back) (front ++ back)
  | up (front back : List String) {part : String} (h : IsProper part) :
      Reduces (front ++ part :: ".." :: back) (front ++ back)
  | top (back : List String) : Reduces (".." :: back) back

/-- What is left when no rule applies. -/
structure NormalForm (parts q : List String) : Prop where
  reduces : Relation.ReflTransGen Reduces parts q
  proper : ∀ part ∈ q, IsProper part

/-- The components that are not passed over. -/
def steps (parts : List String) : List String := parts.filter fun part => part ≠ "" ∧ part ≠ "."

theorem normalize_append_up (front back : List String) (h : part ≠ "..") :
    normalize (front ++ part :: ".." :: back) = normalize (front ++ back) := by
  simp [normalize, List.foldl_append, step, h]

theorem steps_append (front back : List String) : steps (front ++ back) = steps front ++ steps back :=
  List.filter_append ..

theorem steps_cons_of_proper (h : IsProper part) (parts : List String) :
    steps (part :: parts) = part :: steps parts :=
  List.filter_cons_of_pos (by simp [h.1, h.2.1])

theorem steps_cons_of_blank (h : part = "" ∨ part = ".") (parts : List String) :
    steps (part :: parts) = steps parts :=
  List.filter_cons_of_neg (by rcases h with rfl | rfl <;> simp)

theorem steps_cons_up (parts : List String) : steps (".." :: parts) = ".." :: steps parts := by
  rfl

/-- No rule changes what is left in the end. -/
theorem Reduces.normalize_eq (h : Reduces parts q) : normalize (steps parts) = normalize (steps q) := by
  cases h with
  | skip front back h => rw [steps_append, steps_append, steps_cons_of_blank h]
  | up front back h =>
    rw [steps_append, steps_append, steps_cons_of_proper h, steps_cons_up, normalize_append_up _ _ h.2.2]
  | top back =>
    rw [steps_cons_up]
    rfl

/-- The loop over the components follows the rules. -/
theorem reduces_foldl_step {here : List String} (h : ∀ part ∈ here, IsProper part)
    (parts : List String) :
    Relation.ReflTransGen Reduces (here ++ parts) ((steps parts).foldl (step []) here) := by
  induction parts generalizing here with
  | nil =>
    rw [List.append_nil]
    exact .refl
  | cons part parts ih =>
    by_cases hb : part = "" ∨ part = "."
    · rw [steps_cons_of_blank hb]
      exact .head (.skip _ _ hb) (ih h)
    · by_cases hu : part = ".."
      · subst hu
        rw [steps_cons_up, List.foldl_cons, step, if_pos rfl]
        rcases here.eq_nil_or_concat with rfl | ⟨front, last, rfl⟩
        · exact .head (.top parts) (ih h)
        · rw [List.concat_eq_append] at h ⊢
          rw [List.forall_mem_append] at h
          rw [List.dropLast_concat, List.append_assoc]
          exact .head (.up _ _ (h.2 last (List.mem_singleton_self last))) (ih h.1)
      · have hproper : IsProper part := ⟨fun he => hb (.inl he), fun he => hb (.inr he), hu⟩
        rw [steps_cons_of_proper hproper, List.foldl_cons, step, if_neg hu, land_nil]
        have hhere : ∀ part' ∈ here ++ [part], IsProper part' :=
          List.forall_mem_append.mpr ⟨h, by simpa using hproper⟩
        have ih := ih hhere
        rwa [List.append_assoc] at ih

theorem normalize_eq_of_reduces (h : Relation.ReflTransGen Reduces parts q) :
    normalize (steps parts) = normalize (steps q) := by
  induction h with
  | refl => rfl
  | tail _ hstep ih => exact ih.trans hstep.normalize_eq

theorem normalize_steps_of_proper (h : ∀ part ∈ q, IsProper part) : normalize (steps q) = q := by
  have hsteps : steps q = q := List.filter_eq_self.mpr fun part hp => by
    simp [(h part hp).1, (h part hp).2.1]
  rw [hsteps, normalize_of_direct (fun part hp => (h part hp).2.2) direct_nil]

/-- Every spelling has one normal form, which is the one that the loop finds. -/
theorem normalForm_iff : NormalForm parts q ↔ q = normalize (steps parts) := by
  constructor
  · rintro ⟨hreduces, hproper⟩
    rw [normalize_eq_of_reduces hreduces, normalize_steps_of_proper hproper]
  · rintro rfl
    refine ⟨reduces_foldl_step (by simp : ∀ part ∈ [], IsProper part) parts, fun part hp => ?_⟩
    obtain ⟨hm, hu⟩ := mem_normalize hp
    obtain ⟨he, hd⟩ := of_decide_eq_true (List.mem_filter.mp hm).2
    exact ⟨he, hd, hu⟩

/-! Paths that are read from their spelling. -/

theorem parts_parse (s : String) : (parse s).parts = steps (components s) := by
  unfold parse steps components
  rw [List.filter_map]
  refine congrArg (List.map String.ofList) (List.filter_congr fun cs _ => decide_eq_decide.mpr ?_)
  have hiff : ∀ cs' : List Char, String.ofList cs = String.ofList cs' ↔ cs = cs' :=
    fun cs' => ⟨String.ofList_injective, congrArg _⟩
  exact and_congr (not_congr (hiff [])).symm (not_congr (hiff ['.'])).symm

theorem parts_join_parse (d s : String) :
    ((parse d).join (parse s)).parts = steps (seenFrom d s) := by
  unfold join seenFrom
  by_cases h : s.toList.head? = some '/'
  · rw [if_pos (isAbsolute_parse.mpr h), if_pos h, parts_parse]
  · rw [if_neg (mt isAbsolute_parse.mp h), if_neg h, steps_append, ← parts_parse, ← parts_parse]

theorem isAbsolute_join {p q : Path} (h : p.isAbsolute = true) : (p.join q).isAbsolute = true := by
  unfold join
  split
  · rename_i hq
    exact hq
  · exact h

theorem resolve_of_isAbsolute (workingDirectory : Path) {p : Path} (h : p.isAbsolute = true) :
    resolve workingDirectory p = normalize p.parts := by
  rw [resolve, join, if_pos h]

theorem isValid_parse : (parse s).isValid = true ↔ '\x00' ∉ s.toList := by
  refine ⟨not_mem_of_isValid_parse, fun h => isValid_iff.mpr fun t ht hm => ?_⟩
  obtain ⟨cs, hcs, rfl⟩ := List.mem_map.mp ht
  rw [String.toList_ofList] at hm
  exact h (subset_of_mem_splitAt (List.mem_filter.mp hcs).1 hm)

theorem isValid_join_parse :
    (((parse d).join (parse s)).isValid && (parse d).isValid) = true ↔
      '\x00' ∉ d.toList ∧ '\x00' ∉ s.toList := by
  rw [Bool.and_eq_true]
  constructor
  · rintro ⟨hfull, hd⟩
    exact ⟨isValid_parse.mp hd, isValid_parse.mp (isValid_of_join hfull)⟩
  · rintro ⟨hd, hs⟩
    have hd := isValid_parse.mpr hd
    have hs := isValid_parse.mpr hs
    refine ⟨isValid_iff.mpr fun t ht => ?_, hd⟩
    rcases mem_parts_join ht with ht | ht
    · exact isValid_iff.mp hd t ht
    · exact isValid_iff.mp hs t ht

/-- A directory, the file that a text names as seen from there, and the normal forms of both. -/
structure Spells (d s : String) (dir file : List String) : Prop where
  absolute : d.toList.head? = some '/'
  directory : NormalForm (components d) dir
  file : NormalForm (seenFrom d s) file

theorem exists_spells (h : d.toList.head? = some '/') (s : String) : ∃ dir file, Spells d s dir file :=
  ⟨_, _, h, normalForm_iff.mpr rfl, normalForm_iff.mpr rfl⟩

namespace Spells

/-- What is shown of a file depends on the normal forms only. -/
theorem relative?_eq (h : Spells d s dir file) (workingDirectory : Path) :
    relative? workingDirectory (parse d) (parse s) =
      if '\x00' ∉ d.toList ∧ '\x00' ∉ s.toList then (below? dir file).map render else none := by
  have ha : (parse d).isAbsolute = true := isAbsolute_parse.mpr h.absolute
  have hdir : resolve workingDirectory (parse d) = dir := by
    rw [resolve_of_isAbsolute _ ha, parts_parse, normalForm_iff.mp h.directory]
  have hfile : resolve workingDirectory ((parse d).join (parse s)) = file := by
    rw [resolve_of_isAbsolute _ (isAbsolute_join ha), parts_join_parse, normalForm_iff.mp h.file]
  unfold relative?
  dsimp only
  rw [hdir, hfile]
  exact if_congr isValid_join_parse rfl rfl

theorem relative?_eq_none_iff (h : Spells d s dir file) (workingDirectory : Path) :
    relative? workingDirectory (parse d) (parse s) = none ↔
      ('\x00' ∈ d.toList ∨ '\x00' ∈ s.toList) ∨ ¬ dir <+: file := by
  have hbelow : below? dir file = none ↔ ¬ dir <+: file := by
    rw [← Option.not_isSome_iff_eq_none, Option.isSome_iff_exists]
    simp only [below?_eq_some_iff]
    exact not_congr (exists_congr fun r => eq_comm)
  rw [h.relative?_eq]
  by_cases hvalid : '\x00' ∉ d.toList ∧ '\x00' ∉ s.toList
  · simp [hvalid, hbelow]
  · rw [if_neg hvalid]
    simp [or_iff_not_imp_left.mpr fun hd => not_not.mp (not_and.mp hvalid hd)]

/-- The components of a file without forbidden characters are names. -/
theorem names (h : Spells d s dir file) (hd : '\x00' ∉ d.toList) (hs : '\x00' ∉ s.toList) :
    ∀ part ∈ file, IsName part := by
  intro part hp
  obtain ⟨he, hdot, hup⟩ := h.file.proper part hp
  have hm : part ∈ ((parse d).join (parse s)).parts := by
    rw [normalForm_iff.mp h.file] at hp
    rw [parts_join_parse]
    exact (mem_normalize hp).1
  have hvalid := (Bool.and_eq_true_iff.mp (isValid_join_parse.mpr ⟨hd, hs⟩)).1
  have hslash : '/' ∉ part.toList := by
    rcases mem_parts_join hm with hm | hm
    · exact (mem_parts_parse hm).2.2
    · exact (mem_parts_parse hm).2.2
  exact ⟨he, hdot, hup, hslash, isValid_iff.mp hvalid part hm⟩

theorem of_relative? (h : Spells d s dir file) {workingDirectory : Path}
    (hr : relative? workingDirectory (parse d) (parse s) = some r) :
    ".." ∉ components r ∧ (r = "." ∧ file = dir ∨ file = dir ++ components r) := by
  rw [h.relative?_eq] at hr
  split at hr
  · rename_i hvalid
    obtain ⟨rest, hb, rfl⟩ := Option.map_eq_some_iff.mp hr
    rw [below?_eq_some_iff] at hb
    have hnames : ∀ part ∈ rest, IsName part :=
      fun part hp => h.names hvalid.1 hvalid.2 part (hb ▸ List.mem_append_right dir hp)
    by_cases hrest : rest = []
    · subst hrest
      exact ⟨by decide, Or.inl ⟨rfl, by simpa using hb⟩⟩
    · have hc : components (render rest) = rest := by
        rw [components, splitAt_render hnames, if_neg hrest, List.map_map]
        simp
      rw [hc]
      exact ⟨fun hup => (hnames _ hup).2.2.1 rfl, Or.inr hb⟩
  · cases hr

end Spells

end Path

/-! The area of a path. -/

namespace Text

variable {stem : List Char} {last : Char} {n : Nat}

theorem dropEnd_append_replicate (h : stem.getLast? ≠ some last) (n : Nat) :
    dropEnd last (stem ++ List.replicate n last) = stem := by
  have hstem : stem.reverse.dropWhile (· = last) = stem.reverse := by
    rw [← List.head?_reverse] at h
    cases hs : stem.reverse with
    | nil => rfl
    | cons c r =>
      rw [hs] at h
      exact List.dropWhile_cons_of_neg (by simpa using h)
  unfold dropEnd
  rw [List.reverse_append, List.reverse_replicate, List.dropWhile_append_of_pos (by simp), hstem,
    List.reverse_reverse]

theorem exists_dropEnd (last : Char) (cs : List Char) :
    (dropEnd last cs).getLast? ≠ some last ∧ ∃ n, cs = dropEnd last cs ++ List.replicate n last := by
  unfold dropEnd
  constructor
  · rw [List.getLast?_reverse]
    intro h
    obtain ⟨r, hr⟩ := List.head?_eq_some_iff.mp h
    simpa using head_of_dropWhile hr
  · refine ⟨(cs.reverse.takeWhile (· = last)).length, ?_⟩
    have hlast : cs.reverse.takeWhile (· = last)
        = List.replicate (cs.reverse.takeWhile (· = last)).length last :=
      List.eq_replicate_of_mem fun c hc => by simpa using List.mem_takeWhile_imp hc
    rw [← List.reverse_inj, List.reverse_append, List.reverse_reverse, List.reverse_replicate, ← hlast,
      List.takeWhile_append_dropWhile]

end Text

namespace Conventions

variable {c : Conventions} {a : Area} {path below : String}

/-- A path in an area: the area's root without the slashes at its end, a slash, and what follows. -/
def Decomposes (c : Conventions) (a : Area) (path below : String) : Prop :=
  ∃ stem n, (c.areaRoot a).toList = stem ++ List.replicate n '/' ∧ stem.getLast? ≠ some '/' ∧
    path.toList = stem ++ '/' :: below.toList

theorem decomposes_iff : c.Decomposes a path below ↔ path.toList = c.areaFront a ++ below.toList := by
  unfold areaFront
  rw [List.append_assoc, List.singleton_append]
  constructor
  · rintro ⟨stem, n, hroot, hlast, hpath⟩
    rw [hroot, dropEnd_append_replicate hlast, hpath]
  · intro hpath
    obtain ⟨hlast, n, hroot⟩ := exists_dropEnd '/' (c.areaRoot a).toList
    exact ⟨_, n, hroot, hlast, hpath⟩

theorem isSome_after?_iff_decomposes :
    (after? (c.areaFront a) path.toList).isSome = true ↔ ∃ below, c.Decomposes a path below := by
  simp only [decomposes_iff, Option.isSome_iff_exists, after?_eq_some_iff]
  exact ⟨fun ⟨r, hr⟩ => ⟨String.ofList r, by rw [hr, String.toList_ofList]⟩, fun ⟨below, h⟩ => ⟨_, h⟩⟩

/-- The area of a path is the first in which it lies. -/
theorem areaOf?_eq_some_iff : c.areaOf? path = some a ↔ (∃ below, c.Decomposes a path below) ∧
    ∃ before after, Area.all = before ++ a :: after ∧
      ∀ b ∈ before, ∀ below, ¬ c.Decomposes b path below := by
  unfold areaOf?
  rw [List.find?_eq_some_iff_append, isSome_after?_iff_decomposes]
  refine and_congr_right fun _ => exists_congr fun before => exists_congr fun after =>
    and_congr_right fun _ => forall_congr' fun b => imp_congr_right fun _ => ?_
  rw [Bool.not_eq_true', ← Bool.not_eq_true, isSome_after?_iff_decomposes, not_exists]

end Conventions

open ConventionLint.Path

namespace Place

variable {p : Place} {a : Area}

/-- A file in an area is known by its path below the area's root, and lies in no earlier area. -/
theorem area?_eq_some_iff : p.area? = some a ↔ ∃ path below, p.relativePath? = some path ∧
    p.areaRelative? = some below ∧ p.conventions.Decomposes a path below ∧
    ∃ before after, Area.all = before ++ a :: after ∧
      ∀ b ∈ before, ∀ below, ¬ p.conventions.Decomposes b path below := by
  constructor
  · intro ha
    obtain ⟨path, hpath, harea⟩ := Option.bind_eq_some_iff.mp ha
    obtain ⟨⟨below, hbelow⟩, hfirst⟩ := Conventions.areaOf?_eq_some_iff.mp harea
    refine ⟨path, below, hpath, ?_, hbelow, hfirst⟩
    have hdrop : path.toList.drop (p.conventions.areaFront a).length = below.toList := by
      rw [Conventions.decomposes_iff.mp hbelow, List.drop_left]
    simp [areaRelative?, ha, hpath, hdrop]
  · rintro ⟨path, below, hpath, -, hbelow, hfirst⟩
    exact Option.bind_eq_some_iff.mpr
      ⟨path, hpath, Conventions.areaOf?_eq_some_iff.mpr ⟨⟨below, hbelow⟩, hfirst⟩⟩

/-- Files with one relative path are in the same area and ignored together. -/
theorem eq_of_relativePath?_eq {p' : Place} (hc : p.conventions = p'.conventions)
    (h : p.relativePath? = p'.relativePath?) :
    p.area? = p'.area? ∧ p.isIgnored = p'.isIgnored := by
  unfold area? isIgnored
  rw [h, hc]
  exact ⟨rfl, rfl⟩

end Place

/-- A file below an absolute directory is shown by what its normal form has more than the directory's, and
nothing is shown of any other file, nor of a text with a character that no path has. So the spelling of a
file does not matter for its relative path, its area and whether it is ignored. A file's area is the first
whose root its relative path goes on from. -/
theorem relativePath_of_spelling :
    (∀ (workingDirectory : Path) (d s : String), d.toList.head? = some '/' →
      ∃ dir file, Spells d s dir file ∧
        (relative? workingDirectory (parse d) (parse s) = none ↔
          ('\x00' ∈ d.toList ∨ '\x00' ∈ s.toList) ∨ ¬ dir <+: file) ∧
        ∀ r, relative? workingDirectory (parse d) (parse s) = some r →
          ".." ∉ components r ∧ (r = "." ∧ file = dir ∨ file = dir ++ components r)) ∧
    (∀ (p p' : Place) (d d' : String) (dir file : List String),
      p.links = [] → p'.links = [] → p.directory = parse d → p'.directory = parse d' →
      p.conventions = p'.conventions →
      Spells d p.file dir file → Spells d' p'.file dir file →
      '\x00' ∉ d.toList ++ p.file.toList → '\x00' ∉ d'.toList ++ p'.file.toList →
      p.relativePath? = p'.relativePath? ∧ p.area? = p'.area? ∧ p.isIgnored = p'.isIgnored) ∧
    ∀ (p : Place) (a : Area), p.area? = some a ↔ ∃ path below, p.relativePath? = some path ∧
      p.areaRelative? = some below ∧ p.conventions.Decomposes a path below ∧
      ∃ before after, Area.all = before ++ a :: after ∧
        ∀ b ∈ before, ∀ below, ¬ p.conventions.Decomposes b path below := by
  refine ⟨fun workingDirectory d s hd => ?_, fun p p' d d' dir file hl hl' hp hp' hc h h' hv hv' => ?_,
    fun p a => Place.area?_eq_some_iff⟩
  · obtain ⟨dir, file, h⟩ := exists_spells hd s
    exact ⟨dir, file, h, h.relative?_eq_none_iff workingDirectory, fun r hr => h.of_relative? hr⟩
  · rw [List.mem_append, not_or] at hv hv'
    have hrel : p.relativePath? = p'.relativePath? := by
      rw [Place.relativePath?, Place.relativePath?, hl, hl', hp, hp', h.relative?_eq, h'.relative?_eq,
        if_pos hv, if_pos hv']
    exact ⟨hrel, Place.eq_of_relativePath?_eq hc hrel⟩

/-- A file of the function area, spelled in a roundabout way. -/
def roundaboutPlace : Place where
  directory := parse "/r/../p//q/."
  file := "x/../../q/src//function/./a.ts"
  conventions := {}
  workingDirectory := ⟨.root, []⟩

/-- The same file, by a plain absolute path. -/
def plainPlace : Place where
  directory := parse "/p/q"
  file := "/p/q/src/function/a.ts"
  conventions := {}
  workingDirectory := ⟨.root, ["p"]⟩

theorem relativePath_of_spelling_roundabout :
    (Spells "/r/../p//q/." roundaboutPlace.file ["p", "q"] ["p", "q", "src", "function", "a.ts"] ∧
      Spells "/p/q" plainPlace.file ["p", "q"] ["p", "q", "src", "function", "a.ts"]) ∧
    roundaboutPlace.relativePath? = some "src/function/a.ts" ∧
    plainPlace.relativePath? = some "src/function/a.ts" ∧
    roundaboutPlace.area? = plainPlace.area? := by
  have h : Spells "/r/../p//q/." roundaboutPlace.file ["p", "q"] ["p", "q", "src", "function", "a.ts"] :=
    ⟨by decide, normalForm_iff.mpr (by decide), normalForm_iff.mpr (by decide)⟩
  have h' : Spells "/p/q" plainPlace.file ["p", "q"] ["p", "q", "src", "function", "a.ts"] :=
    ⟨by decide, normalForm_iff.mpr (by decide), normalForm_iff.mpr (by decide)⟩
  obtain ⟨-, hsame, -⟩ := relativePath_of_spelling
  obtain ⟨hrel, harea, -⟩ :=
    hsame roundaboutPlace plainPlace _ _ _ _ rfl rfl rfl rfl rfl h h' (by decide) (by decide)
  have hplain : plainPlace.relativePath? = some "src/function/a.ts" := by decide
  exact ⟨⟨h, h'⟩, hrel.trans hplain, hplain, harea⟩

/-- A text with a character that no path has is not shown, though its normal form is below the
directory's. -/
theorem relative?_of_forbidden : Spells "/p" "a\x00" ["p"] ["p", "a\x00"] ∧
    ["p"] <+: ["p", "a\x00"] ∧ relative? ⟨.root, ["p"]⟩ (parse "/p") (parse "a\x00") = none := by
  refine ⟨⟨by decide, normalForm_iff.mpr (by decide), normalForm_iff.mpr (by decide)⟩, ?_, ?_⟩
  · decide
  · decide

end ConventionLint
