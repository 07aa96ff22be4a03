import ConventionLint.Proofs.Configuration
import ConventionLint.Proofs.Overwrite

/-! How a configuration is refused, and what the accepted ones are known to hold. -/
namespace ConventionLint

open Data Text

namespace Conventions

variable {entries : List (Value × Value)} {c : Conventions} {v : Value} {e : ConfigError}

/-- The version is a list or a mapping, which no version can be compared with. -/
def CompositeVersion (v : Value) : Prop :=
  ∃ w, v.entry? "version" = some w ∧ Yaml.isCollection w = true

/-- An entry is taken for something else than it is: a start of database files that is no text or
blank, or something that is no truth value. -/
def Coerces (v : Value) : Prop :=
  (∃ items, v.entry? "database_file_prefixes" = some (.list items) ∧
    ∃ item ∈ items, filled? item = none) ∨
  ∃ w, v.entry? "strict_portal_database" = some w ∧ ∀ b, w ≠ .bool b

/-- The conventions hold the entries as they are written, and these have the types that are
declared: texts that are not blank, and a truth value. -/
structure Typed (v : Value) (c : Conventions) : Prop where
  setting : ∀ (s : Setting) w, v.entry? s.key = some w →
    w = .text (c.setting s) ∧ IsFilled (c.setting s)
  fronts : ∀ w, v.entry? "database_file_prefixes" = some w →
    w = .list (c.databaseFronts.map .text) ∧ c.databaseFronts ≠ [] ∧
      ∀ front ∈ c.databaseFronts, IsFilled front
  strict : ∀ w, v.entry? "strict_portal_database" = some w → w = .bool c.strictPortal

/-- A configuration is accepted with all its entries as they are, or refused as an invalid one. -/
def Validates (v : Value) : Prop :=
  match ofValue v with
  | .ok c => Typed v c
  | .error e => (LoadError.config e).isInvalid = true

/-! Only the check of the version can fail in another way than by an invalid value. -/

theorem foldlM_eq_error {ε α β : Type} {f : β → α → Except ε β} {l : List α} {b : β} {e : ε}
    (h : l.foldlM f b = .error e) : ∃ b a, f b a = .error e := by
  induction l generalizing b with
  | nil => cases h
  | cons a l ih =>
    rw [List.foldlM_cons] at h
    obtain he | ⟨next, -, hl⟩ := bind_eq_error.mp h
    · exact ⟨b, a, he⟩
    · exact ih hl

theorem mapM_eq_error {ε α β : Type} {f : α → Except ε β} {l : List α} {e : ε}
    (h : l.mapM f = .error e) : ∃ a, f a = .error e := by
  induction l with
  | nil => cases h
  | cons a l ih =>
    rw [List.mapM_cons] at h
    obtain he | ⟨b, -, h⟩ := bind_eq_error.mp h
    · exact ⟨a, he⟩
    · obtain he | ⟨bs, -, h⟩ := bind_eq_error.mp h
      · exact ih he
      · cases h

theorem isInvalid_readSettings (h : readSettings entries = .error e) :
    (LoadError.config e).isInvalid = true := by
  obtain ⟨current, s, hs⟩ := foldlM_eq_error h
  unfold readSetting at hs
  split at hs
  · cases hs
  · split at hs
    · cases hs
      rfl
    · cases hs

theorem isInvalid_readTexts {key : String} {base : List (String × String)}
    (h : readTexts key base v = .error e) : (LoadError.config e).isInvalid = true := by
  unfold readTexts at h
  split at h
  · obtain ⟨m, entry, hs⟩ := foldlM_eq_error h
    split at hs
    · cases hs
      rfl
    · cases hs
  · cases h
    rfl

theorem isInvalid_readRoles {place : String} (h : readRoles place v = .error e) :
    (LoadError.config e).isInvalid = true := by
  unfold readRoles at h
  split at h
  · obtain ⟨w, hw⟩ := mapM_eq_error h
    unfold readRole at hw
    split at hw
    · cases hw
    · cases hw
      rfl
  · cases h
    rfl

theorem isInvalid_readClass {markers : List (String × String)} {earlier : List String} {index : Nat}
    (h : readClass markers earlier index v = .error e) :
    (LoadError.config e).isInvalid = true := by
  cases v with
  | map entries =>
    simp only [readClass] at h
    split at h
    · cases h
      rfl
    · split at h
      · cases h
        rfl
      · split at h
        · cases h
          rfl
        · obtain hr | ⟨roles, -, h⟩ := bind_eq_error.mp h
          · exact isInvalid_readRoles hr
          · cases h
  | null | bool _ | number _ | text _ | list _ | other _ _ =>
    cases h
    rfl

theorem isInvalid_readClasses {markers : List (String × String)}
    (h : readClasses markers v = .error e) : (LoadError.config e).isInvalid = true := by
  have hfrom : ∀ (vs : List Value) (earlier : List String) (index : Nat),
      readClassesFrom markers earlier index vs = .error e →
        (LoadError.config e).isInvalid = true := by
    intro vs
    induction vs with
    | nil =>
      intro _ _ h
      cases h
    | cons v vs ih =>
      intro earlier index h
      obtain hk | ⟨k, -, h⟩ := bind_eq_error.mp h
      · exact isInvalid_readClass hk
      · obtain hks | ⟨ks, -, h⟩ := bind_eq_error.mp h
        · exact ih _ _ hks
        · cases h
  unfold readClasses at h
  split at h
  · exact hfrom _ _ _ h
  · cases h
    rfl

theorem isInvalid_readFronts (h : readFronts v = .error e) :
    (LoadError.config e).isInvalid = true := by
  unfold readFronts at h
  split at h
  · cases h
  · cases h
    rfl

theorem isInvalid_readEntry {α : Type} {key : String} {standard : α}
    {read : Value → Except ConfigError α}
    (hr : ∀ w, read w = .error e → (LoadError.config e).isInvalid = true)
    (h : readEntry entries key standard read = .error e) :
    (LoadError.config e).isInvalid = true := by
  unfold readEntry at h
  split at h
  · cases h
  · exact hr _ h

/-- Behind the check of the version, all failures are those of invalid values. -/
theorem ofValue_map_error (h : ofValue (.map entries) = .error e) :
    checkVersion entries = .error e ∨ (LoadError.config e).isInvalid = true := by
  unfold ofValue at h
  obtain hv | ⟨_, -, h⟩ := bind_eq_error.mp h
  · exact Or.inl hv
  right
  obtain hs | ⟨_, -, h⟩ := bind_eq_error.mp h
  · exact isInvalid_readSettings hs
  obtain hm | ⟨_, -, h⟩ := bind_eq_error.mp h
  · exact isInvalid_readEntry (fun _ => isInvalid_readTexts) hm
  obtain hk | ⟨_, -, h⟩ := bind_eq_error.mp h
  · exact isInvalid_readEntry (fun _ => isInvalid_readClasses) hk
  obtain hp | ⟨_, -, h⟩ := bind_eq_error.mp h
  · exact isInvalid_readEntry (fun _ => isInvalid_readRoles) hp
  obtain hf | ⟨_, -, h⟩ := bind_eq_error.mp h
  · exact isInvalid_readEntry (fun _ => isInvalid_readFronts) hf
  obtain hd | ⟨_, -, h⟩ := bind_eq_error.mp h
  · exact isInvalid_readEntry (fun _ => isInvalid_readTexts) hd
  · cases h

/-- The check of the version fails otherwise exactly for a collection. -/
theorem isInvalid_checkVersion (h : checkVersion entries = .error e) :
    (LoadError.config e).isInvalid = false ↔ CompositeVersion (.map entries) := by
  have hc : CompositeVersion (.map entries) ↔
      ∃ w, Value.lookup "version" entries = some w ∧ Yaml.isCollection w = true := Iff.rfl
  rw [hc]
  unfold checkVersion at h
  cases hl : Value.lookup "version" entries with
  | none =>
    rw [hl] at h
    cases h
  | some w =>
    rw [hl] at h
    cases w with
    | list items =>
      cases h
      simp [Yaml.isCollection, LoadError.isInvalid]
    | map inner =>
      cases h
      simp [Yaml.isCollection, LoadError.isInvalid]
    | null | bool _ | number _ | text _ | other _ _ =>
      simp only [Option.getD_some] at h
      split at h
      · cases h
      · cases h
        simp [Yaml.isCollection, LoadError.isInvalid]

theorem checkVersion_of_composite (h : CompositeVersion (.map entries)) :
    ∃ kind, checkVersion entries = .error (.versionType kind) := by
  obtain ⟨w, hw, hcollection⟩ := h
  have hw : Value.lookup "version" entries = some w := hw
  unfold checkVersion
  rw [hw]
  cases w with
  | list items => exact ⟨_, rfl⟩
  | map inner => exact ⟨_, rfl⟩
  | null | bool _ | number _ | text _ | other _ _ => cases hcollection

theorem ofValue_of_composite (h : CompositeVersion v) :
    ∃ kind, ofValue v = .error (.versionType kind) := by
  cases v with
  | map entries =>
    obtain ⟨kind, hk⟩ := checkVersion_of_composite h
    refine ⟨kind, ?_⟩
    unfold ofValue
    exact bind_eq_error.mpr (Or.inl hk)
  | null | bool _ | number _ | text _ | list _ | other _ _ =>
    obtain ⟨w, hw, -⟩ := h
    cases hw

/-- A configuration is refused in another way than as invalid exactly if its version is a
collection. -/
theorem isInvalid_ofValue (h : ofValue v = .error e) :
    (LoadError.config e).isInvalid = true ↔ ¬ CompositeVersion v := by
  constructor
  · intro hi hcomposite
    obtain ⟨kind, hk⟩ := ofValue_of_composite hcomposite
    rw [hk] at h
    cases h
    cases hi
  · intro hcomposite
    cases v with
    | map entries =>
      obtain hv | hi := ofValue_map_error h
      · rw [← isInvalid_checkVersion hv, Bool.not_eq_false] at hcomposite
        exact hcomposite
      · exact hi
    | null => cases h
    | bool _ | number _ | text _ | list _ | other _ _ =>
      cases h
      rfl

/-! What is accepted is as it is declared, unless it was taken for something else. -/

theorem plain_of_filled {items : List Value} (h : ∀ item ∈ items, filled? item ≠ none) :
    items = (items.map Value.plain).map .text ∧ ∀ s ∈ items.map Value.plain, IsFilled s := by
  induction items with
  | nil => exact ⟨rfl, nofun⟩
  | cons item items ih =>
    obtain ⟨s, hs⟩ := Option.ne_none_iff_exists'.mp (h item (List.mem_cons_self ..))
    obtain ⟨rfl, hfilled⟩ := filled?_eq_some_iff.mp hs
    obtain ⟨hitems, hall⟩ := ih fun item hm => h item (List.mem_cons_of_mem _ hm)
    constructor
    · rw [List.map_cons, List.map_cons, ← hitems]
      rfl
    · rw [List.map_cons, List.forall_mem_cons]
      exact ⟨hfilled, hall⟩

theorem filled?_text {s : String} (h : IsFilled s) : filled? (.text s) = some s :=
  filled?_eq_some_iff.mpr ⟨rfl, h⟩

theorem ReadFrom.typed_iff (h : ReadFrom entries c) :
    Typed (.map entries) c ↔ ¬ Coerces (.map entries) := by
  constructor
  · rintro ht (⟨items, hi, item, hm, hn⟩ | ⟨w, hw, hb⟩)
    · obtain ⟨hlist, -, hall⟩ := ht.fronts _ hi
      cases hlist
      obtain ⟨s, hs, rfl⟩ := List.mem_map.mp hm
      rw [filled?_text (hall s hs)] at hn
      cases hn
    · exact hb _ (ht.strict w hw)
  · intro hn
    refine ⟨fun s => (of_readSettings h.setting s).1, fun w hw => ?_, fun w hw => ?_⟩
    · have hread := readEntry_some hw h.databaseFronts
      unfold readFronts at hread
      split at hread
      · rename_i item items
        have hfilled : ∀ i ∈ item :: items, filled? i ≠ none :=
          fun i hi he => hn (Or.inl ⟨_, hw, i, hi, he⟩)
        obtain ⟨hlist, hall⟩ := plain_of_filled hfilled
        have hfronts := Except.ok.inj hread
        rw [← hfronts]
        exact ⟨congrArg Value.list hlist, by simp, hall⟩
      · cases hread
    · have hw' : Value.lookup "strict_portal_database" entries = some w := hw
      have hstrict := h.strictPortal
      rw [hw'] at hstrict
      cases w with
      | bool b =>
        rw [hstrict]
        rfl
      | null | number _ | text _ | list _ | map _ | other _ _ =>
        exact (hn (Or.inr ⟨_, hw, nofun⟩)).elim

theorem typed_iff (h : ofValue v = .ok c) : Typed v c ↔ ¬ Coerces v := by
  obtain ⟨rfl, rfl⟩ | ⟨entries, rfl, hr⟩ := ofValue_cases h
  · refine ⟨?_, fun _ => ⟨nofun, nofun, nofun⟩⟩
    rintro - (⟨_, ⟨⟩, -⟩ | ⟨_, ⟨⟩, -⟩)
  · exact hr.typed_iff

/-- The configuration file of a project that holds a value that is refused. -/
theorem ofProject_of_source {d : Volume} {root p : Path} {file : Option Path} {text : String}
    (hp : source? d root file = some p) (ht : d.readStream p = .ok text)
    (hv : Yaml.load text.toList = .ok v) (he : ofValue v = .error e) :
    ofProject d root file = .error (.config e) := by
  have hload : load d p = .error (.config e) := by
    unfold load ofText
    simp only [ht, hv, he]
  unfold source? at hp
  unfold ofProject
  cases file with
  | some q =>
    cases hp
    exact hload
  | none =>
    dsimp only at hp ⊢
    rcases hf : find? d root with _ | _ | q
    · rw [hf] at hp
      cases hp
    · rw [hf] at hp
      cases hp
    · rw [hf] at hp
      cases hp
      exact hload

end Conventions

open Conventions

/-- A configuration is accepted as it is declared or refused as invalid exactly if its version is no
collection and, once it is accepted, nothing in it was taken for something else. A run reports what
is refused as an invalid configuration unless the version is a collection, or the path of the project
is no path. -/
theorem validates_iff (v : Value) :
    (Validates v ↔ ¬ CompositeVersion v ∧ ((∃ c, ofValue v = .ok c) → ¬ Coerces v)) ∧
    ∀ (g : Registry) (d : Volume) (q : LintRequest) (start finish : Number) (p : Path)
      (text : String) (e : ConfigError), source? d (d.absolute q.root) q.config = some p →
      d.readStream p = .ok text → Yaml.load text.toList = .ok v → ofValue v = .error e →
        (q.root.isValid = true → CompositeVersion v →
          (lint g d q start finish).1 = .error (.load (.config e))) ∧
        (q.root.isValid = true → ¬ CompositeVersion v →
          (lint g d q start finish).1 = .error (.configuration (.config e))) ∧
        (q.root.isValid = false → (lint g d q start finish).1 = .error (.path .invalidPath)) := by
  constructor
  · unfold Validates
    cases hv : ofValue v with
    | ok c =>
      have hcomposite : ¬ CompositeVersion v := by
        intro h
        obtain ⟨kind, hk⟩ := ofValue_of_composite h
        rw [hv] at hk
        cases hk
      simp [typed_iff hv, hcomposite]
    | error e => simp [isInvalid_ofValue hv]
  · intro g d q start finish p text e hp ht hv he
    have hi := isInvalid_ofValue he
    have hproject := ofProject_of_source hp ht hv he
    have hu : (LoadError.config e).isUnreadable = false := rfl
    refine ⟨fun hroot hc => ?_, fun hroot hc => ?_, fun hroot => ?_⟩
    · have hf : (LoadError.config e).isInvalid = false := by
        rw [← Bool.not_eq_true, hi]
        exact not_not_intro hc
      rw [lint_of_refused hroot hproject, hu, hf]
      rfl
    · rw [lint_of_refused hroot hproject, hi.mpr hc]
      rfl
    · simp [lint, hroot]

/-- A project whose configuration has a list for a version. -/
def listedVersion : Disk where
  entries :=
    [(["p"], .directory),
     (["p", "bakelint.yml"], .file ("version: []\n".toList.map fun c => .ofNat c.toNat))]

theorem validates_iff_listedVersion :
    Validates (.map [(.text "args_marker", .text "Input")]) ∧
    ∃ v, Yaml.load "version: []\n".toList = .ok v ∧ ¬ Validates v ∧ ∃ e, ofValue v = .error e ∧
      (lint .builtin listedVersion { root := ⟨.root, ["p"]⟩ } (.int 0) (.int 0)).1
        = .error (.load (.config e)) := by
  constructor
  · refine (validates_iff _).1.mpr ⟨?_, fun _ => ?_⟩
    · rintro ⟨_, ⟨⟩, -⟩
    · rintro (⟨_, ⟨⟩, -⟩ | ⟨_, ⟨⟩, -⟩)
  · have hload : (Yaml.load "version: []\n".toList).toOption.any fun v =>
        (v.entry? "version").any Yaml.isCollection := by
      decide +kernel
    have hp : source? listedVersion (listedVersion.absolute ⟨.root, ["p"]⟩) none
        = some ⟨.root, ["p", "bakelint.yml"]⟩ := by
      decide +kernel
    have ht : listedVersion.readStream ⟨.root, ["p", "bakelint.yml"]⟩ = .ok "version: []\n" := by
      decide +kernel
    obtain ⟨v, hv, hversion⟩ := exists_ok_of_any hload
    have hcomposite : CompositeVersion v := by
      obtain ⟨hs, hcollection⟩ := (Option.any_eq_true_iff_get ..).mp hversion
      exact ⟨_, (Option.some_get hs).symm, hcollection⟩
    obtain ⟨kind, he⟩ := ofValue_of_composite hcomposite
    obtain ⟨hiff, hlint⟩ := validates_iff v
    refine ⟨v, hv, fun h => (hiff.mp h).1 hcomposite, _, he, ?_⟩
    exact (hlint .builtin listedVersion { root := ⟨.root, ["p"]⟩ } (.int 0) (.int 0) _ _ _ hp ht hv
      he).1 (by decide) hcomposite

/-- A configuration with a list for a version is not refused as invalid, and other values than texts
and truth values are accepted in their places. -/
theorem not_validates :
    ¬ Validates (.map [(.text "version", .list [])]) ∧
    ¬ Validates (.map [(.text "database_file_prefixes", .list [.null])]) ∧
    ¬ Validates (.map [(.text "strict_portal_database", .text "no")]) := by
  refine ⟨?_, fun h => ?_, fun h => ?_⟩
  · nofun
  · have ht : Typed (.map [(.text "database_file_prefixes", .list [.null])]) _ := h
    refine (typed_iff rfl).mp ht (Or.inl ⟨[.null], rfl, .null, List.mem_cons_self .., rfl⟩)
  · have ht : Typed (.map [(.text "strict_portal_database", .text "no")]) _ := h
    exact (typed_iff rfl).mp ht (Or.inr ⟨.text "no", rfl, nofun⟩)

end ConventionLint
