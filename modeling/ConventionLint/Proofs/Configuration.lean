import Mathlib.Data.List.TakeWhile
import ConventionLint.Proofs.Blank
import ConventionLint.Proofs.Consistency
import ConventionLint.Proofs.Scan

/-! What conventions say, entry by entry of the value that they were read from. -/
namespace ConventionLint

open Data Text

namespace Text

/-- A text with a character that is no white space. -/
def IsFilled (s : String) : Prop := ∃ c ∈ s.toList, isBlank c = false

instance (s : String) : Decidable (IsFilled s) :=
  decidable_of_iff ((s.toList.any fun c => !isBlank c) = true) (by simp [IsFilled])

theorem trim_ne_nil_iff {s : String} : (trim s.toList).isEmpty = false ↔ IsFilled s := by
  rw [List.isEmpty_eq_false_iff, ne_eq, trim_eq_nil_iff]
  simp [AllBlank, IsFilled]

end Text

namespace Data.Value

/-- The value of an entry, if there is one. -/
def entry? (name : String) : Value → Option Value
  | .map entries => lookup name entries
  | _ => none

end Data.Value

namespace Conventions

theorem filled?_eq_some_iff {v : Value} {s : String} :
    filled? v = some s ↔ v = .text s ∧ IsFilled s := by
  cases v with
  | text t =>
    rw [filled?]
    cases ht : (trim t.toList).isEmpty with
    | true =>
      have hn : ¬ IsFilled t := by
        rw [← trim_ne_nil_iff, ht]
        nofun
      simp only [if_true, reduceCtorEq, Value.text.injEq, false_iff]
      rintro ⟨rfl, hf⟩
      exact hn hf
    | false =>
      have hf := trim_ne_nil_iff.mp ht
      simp only [Bool.false_eq_true, if_false, Option.some.injEq, Value.text.injEq]
      constructor
      · rintro rfl
        exact ⟨rfl, hf⟩
      · exact And.left
  | null | bool _ | number _ | list _ | map _ | other _ _ => simp [filled?]

variable {entries : List (Value × Value)} {c : Conventions} {v : Value}

/-- A setting that is read is what its entry says, others stay. -/
theorem of_readSetting {current next : Setting → String} {s : Setting}
    (h : readSetting entries current s = .ok next) :
    (∀ w, Value.lookup s.key entries = some w → filled? w = some (next s)) ∧
      (Value.lookup s.key entries = none → next s = current s) ∧
      ∀ t, t ≠ s → next t = current t := by
  unfold readSetting at h
  cases hl : Value.lookup s.key entries with
  | none =>
    rw [hl] at h
    cases h
    exact ⟨nofun, fun _ => rfl, fun _ _ => rfl⟩
  | some w =>
    rw [hl] at h
    cases hf : filled? w with
    | none =>
      simp only [hf] at h
      cases h
    | some text =>
      simp only [hf, Except.ok.injEq] at h
      subst h
      refine ⟨?_, nofun, fun t ht => if_neg ht⟩
      rintro _ ⟨⟩
      simp [hf]

theorem of_foldlM_readSetting {ss : List Setting} {current last : Setting → String}
    (h : ss.foldlM (readSetting entries) current = .ok last) (s : Setting) :
    (s ∈ ss → ∀ w, Value.lookup s.key entries = some w → filled? w = some (last s)) ∧
      (Value.lookup s.key entries = none ∨ s ∉ ss → last s = current s) := by
  induction ss generalizing current with
  | nil =>
    cases h
    exact ⟨nofun, fun _ => rfl⟩
  | cons t ss ih =>
    rw [List.foldlM_cons] at h
    obtain ⟨next, hn, hl⟩ := bind_eq_ok h
    obtain ⟨hread, hstay, hother⟩ := of_readSetting hn
    obtain ⟨hin, hout⟩ := ih hl
    constructor
    · intro hs w hw
      by_cases hmem : s ∈ ss
      · exact hin hmem w hw
      · have hst : s = t := by simpa [hmem] using hs
        subst hst
        rw [hout (Or.inr hmem)]
        exact hread w hw
    · rintro (hnone | hs)
      · rw [hout (Or.inl hnone)]
        by_cases hst : s = t
        · subst hst
          exact hstay hnone
        · exact hother s hst
      · simp only [List.mem_cons, not_or] at hs
        rw [hout (Or.inr hs.2)]
        exact hother s hs.1

theorem mem_all (s : Setting) : s ∈ Setting.all := by
  cases s <;> decide

/-- A setting is the text of its entry, or the standard one. -/
theorem of_readSettings {setting : Setting → String} (h : readSettings entries = .ok setting)
    (s : Setting) :
    (∀ w, Value.lookup s.key entries = some w → w = .text (setting s) ∧ IsFilled (setting s)) ∧
      (Value.lookup s.key entries = none → setting s = s.standard) := by
  obtain ⟨hin, hout⟩ := of_foldlM_readSetting h s
  exact ⟨fun w hw => filled?_eq_some_iff.mp (hin (mem_all s) w hw), fun hn => hout (Or.inl hn)⟩

theorem readEntry_none {α : Type} {key : String} {standard a : α}
    {read : Value → Except ConfigError α} (hn : Value.lookup key entries = none)
    (h : readEntry entries key standard read = .ok a) : a = standard := by
  unfold readEntry at h
  rw [hn] at h
  exact (Except.ok.inj h).symm

theorem readEntry_some {α : Type} {key : String} {standard a : α} {w : Value}
    {read : Value → Except ConfigError α} (hs : Value.lookup key entries = some w)
    (h : readEntry entries key standard read = .ok a) : read w = .ok a := by
  unfold readEntry at h
  rw [hs] at h
  exact h

/-- What has been read when conventions are there: each part from its own entry. -/
structure ReadFrom (entries : List (Value × Value)) (c : Conventions) : Prop where
  version : checkVersion entries = .ok ()
  setting : readSettings entries = .ok c.setting
  resultMarkers : readEntry entries "result_markers" standardMarkers
    (readTexts "result_markers" standardMarkers) = .ok c.resultMarkers
  namingClasses : readEntry entries "prefixes" standardClasses
    (readClasses c.resultMarkers) = .ok c.namingClasses
  controllerParameters : readEntry entries "controller_parameters" [.portal, .args]
    (readRoles "bakelint.yml: controller_parameters") = .ok c.controllerParameters
  databaseFronts : readEntry entries "database_file_prefixes" ["conn.", "schema.", "auth."]
    readFronts = .ok c.databaseFronts
  strictPortal : c.strictPortal
    = ((Value.lookup "strict_portal_database" entries).map Value.isTrue).getD false
  docs : readEntry entries "docs" standardDocs (readTexts "docs" standardDocs) = .ok c.docs

theorem readFrom_of_ofValue (h : ofValue (.map entries) = .ok c) : ReadFrom entries c := by
  unfold ofValue at h
  obtain ⟨_, hversion, h⟩ := bind_eq_ok h
  obtain ⟨setting, hsetting, h⟩ := bind_eq_ok h
  obtain ⟨markers, hmarkers, h⟩ := bind_eq_ok h
  obtain ⟨classes, hclasses, h⟩ := bind_eq_ok h
  obtain ⟨parameters, hparameters, h⟩ := bind_eq_ok h
  obtain ⟨fronts, hfronts, h⟩ := bind_eq_ok h
  obtain ⟨docs, hdocs, h⟩ := bind_eq_ok h
  cases h
  exact ⟨hversion, hsetting, hmarkers, hclasses, hparameters, hfronts, rfl, hdocs⟩

/-- Only nothing and mappings are accepted. -/
theorem ofValue_cases (h : ofValue v = .ok c) :
    (v = .null ∧ c = {}) ∨ ∃ entries, v = .map entries ∧ ReadFrom entries c := by
  cases v with
  | null =>
    cases h
    exact Or.inl ⟨rfl, rfl⟩
  | map entries => exact Or.inr ⟨entries, rfl, readFrom_of_ofValue h⟩
  | bool _ | number _ | text _ | list _ | other _ _ => cases h

theorem mem_put {name text : String} {m : List (String × String)} {e : String × String}
    (h : e ∈ put name text m) : e = (name, text) ∨ e ∈ m := by
  induction m with
  | nil => simpa [put] using h
  | cons first m ih =>
    rw [put] at h
    split at h
    · rcases List.mem_cons.mp h with he | he
      · exact Or.inl he
      · exact Or.inr (List.mem_cons_of_mem _ he)
    · rcases List.mem_cons.mp h with he | he
      · exact Or.inr (List.mem_cons.mpr (Or.inl he))
      · exact (ih he).imp_right (List.mem_cons_of_mem _)

/-- What every step of a fold keeps holds at its end. -/
theorem foldlM_keeps {ε α β : Type} {f : β → α → Except ε β} {P : β → Prop}
    (hs : ∀ b a b', f b a = .ok b' → P b → P b') {l : List α} {b b' : β}
    (h : l.foldlM f b = .ok b') (hb : P b) : P b' := by
  induction l generalizing b with
  | nil =>
    cases h
    exact hb
  | cons a l ih =>
    rw [List.foldlM_cons] at h
    obtain ⟨next, hn, hl⟩ := bind_eq_ok h
    exact ih hl (hs b a next hn hb)

/-- No text that is put over others is blank. -/
theorem filled_readTexts {key : String} {base m : List (String × String)}
    (h : readTexts key base v = .ok m) (hb : ∀ e ∈ base, IsFilled e.2) :
    ∀ e ∈ m, IsFilled e.2 := by
  unfold readTexts at h
  split at h
  · refine foldlM_keeps (P := fun m => ∀ e ∈ m, IsFilled e.2) ?_ h hb
    intro m entry next hn hm e he
    split at hn
    · cases hn
    · rename_i text ht
      cases hn
      rcases mem_put he with rfl | he
      · exact (filled?_eq_some_iff.mp ht).2
      · exact hm e he
  · cases h

theorem readRoles_ne_nil {place : String} {roles : List ParameterRole}
    (h : readRoles place v = .ok roles) : roles ≠ [] := by
  unfold readRoles at h
  split at h
  · rw [List.mapM_cons] at h
    obtain ⟨role, -, h⟩ := bind_eq_ok h
    obtain ⟨others, -, h⟩ := bind_eq_ok h
    cases h
    simp
  · cases h

theorem of_readClass {markers : List (String × String)} {earlier : List String} {index : Nat}
    {k : NamingClass} (h : readClass markers earlier index v = .ok k) :
    IsFilled k.front ∧ k.front ∉ earlier ∧ k.parameters ≠ [] := by
  cases v with
  | map entries =>
    simp only [readClass] at h
    split at h
    · cases h
    · rename_i front hfront
      obtain ⟨w, -, hw⟩ := Option.bind_eq_some_iff.mp hfront
      split at h
      · cases h
      · rename_i hearlier
        split at h
        · cases h
        · obtain ⟨roles, hroles, hk⟩ := bind_eq_ok h
          cases hk
          exact ⟨(filled?_eq_some_iff.mp hw).2, by simpa using hearlier, readRoles_ne_nil hroles⟩
  | null | bool _ | number _ | text _ | list _ | other _ _ => cases h

/-- The starts of naming classes are new, each of them. -/
theorem of_readClassesFrom {markers : List (String × String)} {vs : List Value}
    {earlier : List String} {index : Nat} {ks : List NamingClass}
    (h : readClassesFrom markers earlier index vs = .ok ks) :
    (∀ k ∈ ks, IsFilled k.front ∧ k.front ∉ earlier ∧ k.parameters ≠ []) ∧
      (ks.map (·.front)).Nodup ∧ ks.length = vs.length := by
  induction vs generalizing earlier index ks with
  | nil =>
    cases h
    exact ⟨nofun, List.nodup_nil, rfl⟩
  | cons v vs ih =>
    obtain ⟨first, hf, h⟩ := bind_eq_ok h
    obtain ⟨others, ho, h⟩ := bind_eq_ok h
    cases h
    obtain ⟨hall, hnodup, hlength⟩ := ih ho
    refine ⟨?_, ?_, by simp [hlength]⟩
    · intro k hk
      rcases List.mem_cons.mp hk with rfl | hk
      · exact of_readClass hf
      · obtain ⟨hfilled, hnew, hroles⟩ := hall k hk
        exact ⟨hfilled, fun he => hnew (List.mem_cons_of_mem _ he), hroles⟩
    · rw [List.map_cons, List.nodup_cons]
      refine ⟨?_, hnodup⟩
      intro hm
      obtain ⟨k, hk, he⟩ := List.mem_map.mp hm
      exact (hall k hk).2.1 (he ▸ List.mem_cons_self ..)

/-- Names of areas that there are documents about. -/
def documented : List String := generalArea :: Area.all.map Area.name

/-- All that rules may rely on: every name that they look up is there, and nothing is blank. -/
structure Sound (c : Conventions) : Prop where
  classes_ne_nil : c.namingClasses ≠ []
  fronts_distinct : (c.namingClasses.map (·.front)).Nodup
  front_filled : ∀ k ∈ c.namingClasses, IsFilled k.front
  parameters_ne_nil : ∀ k ∈ c.namingClasses, k.parameters ≠ []
  result_known : ∀ k ∈ c.namingClasses, ∃ marker, c.resultMarker k = .ok marker
  markers_known : ∀ name ∈ ["tuple", "triple"], (c.resultMarkers.lookup name).isSome
  markers_filled : ∀ e ∈ c.resultMarkers, IsFilled e.2
  docs_known : ∀ name ∈ documented, (c.docs.lookup name).isSome
  docs_filled : ∀ e ∈ c.docs, IsFilled e.2
  setting_filled : ∀ s, IsFilled (c.setting s)

theorem filled_standard (s : Setting) : IsFilled s.standard := by
  cases s <;> decide

theorem sound_standard : Sound {} where
  classes_ne_nil := by decide
  fronts_distinct := by decide
  front_filled := by decide
  parameters_ne_nil := by decide
  result_known _ hk := Rule.resultMarker_known consistent_standard hk
  markers_known := by decide
  markers_filled := by decide
  docs_known := by decide
  docs_filled := by decide
  setting_filled := filled_standard

theorem ReadFrom.sound (h : ReadFrom entries c) (hc : c.Consistent) : c.Sound := by
  have hclasses : (∀ k ∈ c.namingClasses, IsFilled k.front ∧ k.front ∉ ([] : List String) ∧
      k.parameters ≠ []) ∧ (c.namingClasses.map (·.front)).Nodup ∧ c.namingClasses ≠ [] := by
    obtain hstandard | ⟨w, hw⟩ := readEntry_cases h.namingClasses
    · rw [hstandard]
      decide
    · unfold readClasses at hw
      split at hw
      · obtain ⟨hall, hnodup, hlength⟩ := of_readClassesFrom hw
        exact ⟨hall, hnodup, List.ne_nil_of_length_eq_add_one hlength⟩
      · cases hw
  refine ⟨hclasses.2.2, hclasses.2.1, fun k hk => (hclasses.1 k hk).1,
    fun k hk => (hclasses.1 k hk).2.2, fun k hk => Rule.resultMarker_known hc hk,
    ?_, ?_, ?_, ?_, ?_⟩
  · intro name hname
    have hs : ∀ name ∈ ["tuple", "triple"], (standardMarkers.lookup name).isSome := by decide
    exact isSome_lookup_markers h.resultMarkers (hs name hname)
  · obtain hstandard | ⟨w, hw⟩ := readEntry_cases h.resultMarkers
    · rw [hstandard]
      decide
    · exact filled_readTexts hw (by decide)
  · intro name hname
    have hs : ∀ name ∈ documented, (standardDocs.lookup name).isSome := by decide
    obtain hstandard | ⟨w, hw⟩ := readEntry_cases h.docs
    · rw [hstandard]
      exact hs name hname
    · exact isSome_lookup_readTexts hw (hs name hname)
  · obtain hstandard | ⟨w, hw⟩ := readEntry_cases h.docs
    · rw [hstandard]
      decide
    · exact filled_readTexts hw (by decide)
  · intro s
    obtain ⟨hread, hstandard⟩ := of_readSettings h.setting s
    cases hl : Value.lookup s.key entries with
    | none =>
      rw [hstandard hl]
      exact filled_standard s
    | some w => exact (hread w hl).2

theorem sound_of_ofValue (h : ofValue v = .ok c) : c.Sound := by
  obtain ⟨-, rfl⟩ | ⟨entries, -, hr⟩ := ofValue_cases h
  · exact sound_standard
  · exact hr.sound (ofValue_consistent h)

/-- What is not configured keeps its standard. -/
structure StandardElsewhere (v : Value) (c : Conventions) : Prop where
  setting : ∀ s : Setting, v.entry? s.key = none → c.setting s = s.standard
  namingClasses : v.entry? "prefixes" = none → c.namingClasses = standardClasses
  resultMarkers : v.entry? "result_markers" = none → c.resultMarkers = standardMarkers
  controllerParameters : v.entry? "controller_parameters" = none →
    c.controllerParameters = [.portal, .args]
  databaseFronts : v.entry? "database_file_prefixes" = none →
    c.databaseFronts = ["conn.", "schema.", "auth."]
  strictPortal : v.entry? "strict_portal_database" = none → c.strictPortal = false
  docs : v.entry? "docs" = none → c.docs = standardDocs

theorem standardElsewhere_of_ofValue (h : ofValue v = .ok c) : StandardElsewhere v c := by
  obtain ⟨-, rfl⟩ | ⟨entries, rfl, hr⟩ := ofValue_cases h
  · exact ⟨fun _ _ => rfl, fun _ => rfl, fun _ => rfl, fun _ => rfl, fun _ => rfl, fun _ => rfl,
      fun _ => rfl⟩
  · refine ⟨fun s hn => (of_readSettings hr.setting s).2 hn,
      fun hn => readEntry_none hn hr.namingClasses,
      fun hn => readEntry_none hn hr.resultMarkers,
      fun hn => readEntry_none hn hr.controllerParameters,
      fun hn => readEntry_none hn hr.databaseFronts, fun hn => ?_,
      fun hn => readEntry_none hn hr.docs⟩
    have hn : Value.lookup "strict_portal_database" entries = none := hn
    rw [hr.strictPortal, hn]
    rfl

/-- The names of all entries that are read. -/
def knownKeys : List String :=
  Setting.all.map Setting.key ++ ["version", "result_markers", "prefixes", "controller_parameters",
    "database_file_prefixes", "strict_portal_database", "docs"]

theorem readEntry_congr {α : Type} {es : List (Value × Value)} {key : String} {standard : α}
    {read : Value → Except ConfigError α}
    (h : Value.lookup key entries = Value.lookup key es) :
    readEntry entries key standard read = readEntry es key standard read := by
  unfold readEntry
  rw [h]

/-- Conventions come from the entries with known names only. -/
theorem ofValue_congr {es : List (Value × Value)}
    (h : ∀ name ∈ knownKeys, Value.lookup name entries = Value.lookup name es) :
    ofValue (.map entries) = ofValue (.map es) := by
  have hversion : checkVersion entries = checkVersion es := by
    unfold checkVersion
    rw [h "version" (by decide)]
  have hsettings : readSettings entries = readSettings es := by
    have hread : readSetting entries = readSetting es := by
      funext current s
      have hs : s.key ∈ knownKeys := List.mem_append_left _ (List.mem_map_of_mem (mem_all s))
      unfold readSetting
      rw [h s.key hs]
    unfold readSettings
    rw [hread]
  unfold ofValue
  simp only [hversion, hsettings, readEntry_congr (h "result_markers" (by decide)),
    readEntry_congr (h "prefixes" (by decide)),
    readEntry_congr (h "controller_parameters" (by decide)),
    readEntry_congr (h "database_file_prefixes" (by decide)),
    h "strict_portal_database" (by decide), readEntry_congr (h "docs" (by decide))]

theorem lookup_insert {name : String} {front back : List (Value × Value)} {key value : Value}
    (h : key ≠ .text name) :
    Value.lookup name (front ++ (key, value) :: back) = Value.lookup name (front ++ back) := by
  induction front with
  | nil =>
    cases key with
    | text s =>
      have hs : s ≠ name := fun he => h (he ▸ rfl)
      simp [Value.lookup, hs]
    | null | bool _ | number _ | list _ | map _ | other _ _ => simp [Value.lookup]
  | cons e front ih =>
    obtain ⟨k, w⟩ := e
    cases k with
    | text s => simp only [List.cons_append, Value.lookup, ih]
    | null | bool _ | number _ | list _ | map _ | other _ _ =>
      simp only [List.cons_append, Value.lookup, ih]

/-- An entry of another name changes nothing. -/
theorem ofValue_insert {front back : List (Value × Value)} {key : Value}
    (h : ∀ name ∈ knownKeys, key ≠ .text name) (value : Value) :
    ofValue (.map (front ++ (key, value) :: back)) = ofValue (.map (front ++ back)) :=
  ofValue_congr fun name hname => lookup_insert (h name hname)

end Conventions

open Run

/-- No rule fails since a name is not known. -/
theorem Rule.exec_evaluate_ne_unknown {d : Volume} {s : RunState} {x : Context} {r : Rule}
    (hc : x.conventions.Consistent) (hr : r ∈ Registry.builtin.entries) (e : UnknownName) :
    ((r.evaluate x).exec d s).1 ≠ .error (.unknown e) := by
  rw [exec_evaluate_fst, exec_outcome_fst]
  have hcheck : ((r.check x).exec d s).1 ≠ .error (.unknown e) := by
    intro h
    obtain ⟨a, log, hx, ha⟩ | rfl | rfl := plain_check hc hr
    · rw [hx] at h
      cases ha _ h
    · obtain ⟨-, f, -, he⟩ := exec_functionPortalDatabase_error_iff.mp h
      cases he
    · obtain hp | ⟨f, he⟩ := exec_functionTestImportsTestingDb_error h
      · cases hp
      · cases he
  split
  · split
    · nofun
    · rename_i f hf
      split
      · nofun
      · rwa [hf] at hcheck
  · nofun

/-- What is looked up for an area by its name is what its files are pointed to. -/
theorem Conventions.docPointer_name (c : Conventions) (a : Area) :
    c.docPointer a.name = .ok (c.areaPointer a) := by
  cases a <;> rfl

/-- Conventions that are accepted have all that rules look up, are standard where nothing is
configured, and do not depend on entries of other names. -/
theorem ofValue_ok_sound {v : Value} {c : Conventions} (h : Conventions.ofValue v = .ok c) :
    c.Sound ∧ Conventions.StandardElsewhere v c ∧
    (∀ front back key value, v = .map (front ++ back) →
      (∀ name ∈ Conventions.knownKeys, key ≠ .text name) →
        Conventions.ofValue (.map (front ++ (key, value) :: back)) = .ok c) ∧
    (∀ a : Area, c.docPointer a.name = .ok (c.areaPointer a)) ∧
    ∀ x : Context, x.conventions = c → ∀ r ∈ Registry.builtin.entries,
      ∀ (d : Volume) (s : RunState) (e : UnknownName),
        ((r.evaluate x).exec d s).1 ≠ .error (.unknown e) := by
  refine ⟨Conventions.sound_of_ofValue h, Conventions.standardElsewhere_of_ofValue h, ?_,
    c.docPointer_name, ?_⟩
  · intro front back key value hv hkey
    rw [Conventions.ofValue_insert hkey, ← hv]
    exact h
  · rintro x rfl r hr d s e
    exact Rule.exec_evaluate_ne_unknown (Conventions.ofValue_consistent h) hr e

/-- A configuration with a result of its own and one naming class, which has that result. -/
def pairConfiguration : List (Value × Value) :=
  [(.text "result_markers", .map [(.text "pair", .text "TPair")]),
   (.text "prefixes", .list [.map [(.text "prefix", .text "gn."), (.text "result", .text "pair")]])]

/-- A function of that class. -/
def pairFunction (c : Conventions) : Context where
  directory := ⟨.root, ["p"]⟩
  file := "src/function/gn.a.ts"
  conventions := c
  workingDirectory := ⟨.root, []⟩
  content := "export default function f(args: TArgs): TPair \x7b\x7d\n"

theorem ofValue_ok_sound_pairConfiguration : ∃ c,
    Conventions.ofValue (.map pairConfiguration) = .ok c ∧ c.Sound ∧
      c.docs = Conventions.standardDocs ∧
      Conventions.ofValue (.map (pairConfiguration ++ [(.text "colour", .null)])) = .ok c ∧
      ∀ e, ((Rule.functionReturnType.evaluate (pairFunction c)).exec {}
        (.fresh ⟨.root, ["p"]⟩ c)).1 ≠ .error (.unknown e) := by
  have hc : Conventions.ofValue (.map pairConfiguration) = .ok _ := rfl
  have hr : Rule.functionReturnType ∈ Registry.builtin.entries := by simp [Registry.builtin]
  obtain ⟨hsound, hstandard, hinsert, -, hrules⟩ := ofValue_ok_sound hc
  refine ⟨_, hc, hsound, hstandard.docs rfl, ?_, hrules (pairFunction _) rfl _ hr _ _⟩
  refine hinsert pairConfiguration [] (.text "colour") .null rfl ?_
  intro name hname he
  cases he
  exact absurd hname (by decide)

end ConventionLint
