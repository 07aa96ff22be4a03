import Mathlib.Data.Finset.Card
import ConventionLint.Database.Catalog
import ConventionLint.Module.ObjectType
import ConventionLint.Proofs.Line
import ConventionLint.Proofs.Result

/-! Which names make a catalog. A name leads to the first variable that was declared under it, and the
catalog is refused exactly if two names differ in the case of their first letter only. -/
namespace ConventionLint

open Text

variable {suffix : String} {vs ws found : List DatabaseVariable} {v w : DatabaseVariable}
  {k k' : Catalog}

namespace Catalog

/-- The variables of a catalog are the first of their names among those that were found, and no two
of them have a name or a factory in common. -/
structure Keeps (k : Catalog) (found : List DatabaseVariable) : Prop where
  first : ∀ name, k.get? name = found.find? fun v => v.name = name
  names : (k.entries.map (·.name)).Nodup
  factories : (k.entries.map (·.testingFactory)).Nodup

theorem keeps_empty : Keeps {} [] := ⟨fun _ => rfl, List.nodup_nil, List.nodup_nil⟩

theorem Keeps.repeated (h : k.Keeps found) (hv : (k.get? v.name).isSome = true) :
    k.Keeps (found ++ [v]) where
  first name := by
    rw [List.find?_append, ← h.first]
    by_cases hn : v.name = name
    · rw [← hn, Option.or_of_isSome hv]
    · simp [hn]
  names := h.names
  factories := h.factories

theorem Keeps.add (h : k.Keeps found) (hn : k.get? v.name = none)
    (ho : k.owner? v.testingFactory = none) : Keeps ⟨k.entries ++ [v]⟩ (found ++ [v]) where
  first name := by
    rw [List.find?_append, ← h.first]
    exact List.find?_append
  names := by
    have hname : v.name ∉ k.entries.map (·.name) := by simpa [get?] using hn
    rw [List.map_append, List.nodup_append]
    exact ⟨h.names, by simp, by simpa using hname⟩
  factories := by
    have hfactory : v.testingFactory ∉ k.entries.map (·.testingFactory) := by
      simpa [owner?] using ho
    rw [List.map_append, List.nodup_append]
    exact ⟨h.factories, by simp, by simpa using hfactory⟩

theorem of_get?_eq_some {name : String} (h : k.get? name = some v) :
    v ∈ k.entries ∧ v.name = name :=
  ⟨List.mem_of_find?_eq_some h, by simpa using List.find?_some h⟩

theorem of_owner?_eq_some {factory : String} (h : k.owner? factory = some v) :
    v ∈ k.entries ∧ v.testingFactory = factory :=
  ⟨List.mem_of_find?_eq_some h, by simpa using List.find?_some h⟩

/-- A variable of the catalog is found under its name. -/
theorem Keeps.get?_name (h : k.Keeps found) (hv : v ∈ k.entries) : k.get? v.name = some v := by
  cases hw : k.get? v.name with
  | none =>
    have hnone := List.find?_eq_none.mp hw v hv
    simp at hnone
  | some w =>
    obtain ⟨hm, hname⟩ := of_get?_eq_some hw
    rw [List.inj_on_of_nodup_map h.names hm hv hname]

theorem Keeps.mem_found (h : k.Keeps found) (hv : v ∈ k.entries) : v ∈ found :=
  List.mem_of_find?_eq_some ((h.first v.name).symm.trans (h.get?_name hv))

/-- What is found is in the catalog, up to the module that declares it. -/
theorem Keeps.exists_entry (h : k.Keeps found) (hv : v ∈ found) :
    ∃ w ∈ k.entries, w.name = v.name := by
  have hs : (k.get? v.name).isSome = true := by
    rw [h.first]
    exact List.find?_isSome.mpr ⟨v, hv, decide_eq_true rfl⟩
  obtain ⟨w, hw⟩ := Option.isSome_iff_exists.mp hs
  exact ⟨w, of_get?_eq_some hw⟩

/-- Two variables with one factory but different names. -/
def Clash (found : List DatabaseVariable) : Prop :=
  ∃ v ∈ found, ∃ w ∈ found, v.name ≠ w.name ∧ v.testingFactory = w.testingFactory

/-- What is found is put into the catalog one by one, until two variables clash. -/
theorem Keeps.insertAll (h : k.Keeps found) :
    (∃ k', (k.insertAll vs).1 = .ok k' ∧ k'.Keeps (found ++ vs)) ∨
      (∃ e, (k.insertAll vs).1 = .error e) ∧ Clash (found ++ vs) := by
  induction vs generalizing k found with
  | nil => exact Or.inl ⟨k, rfl, by rwa [List.append_nil]⟩
  | cons v vs ih =>
    rw [Catalog.insertAll]
    cases hn : k.get? v.name with
    | some first =>
      have hk := h.repeated (v := v) (by rw [hn]; rfl)
      simpa using ih hk
    | none =>
      cases ho : k.owner? v.testingFactory with
      | none => simpa using ih (h.add hn ho)
      | some other =>
        obtain ⟨hother, hfactory⟩ := of_owner?_eq_some ho
        refine Or.inr ⟨⟨_, rfl⟩, other, ?_, v, ?_, ?_, hfactory⟩
        · exact List.mem_append_left _ (h.mem_found hother)
        · exact List.mem_append_right _ (List.mem_cons_self ..)
        · intro he
          rw [← he, h.get?_name hother] at hn
          cases hn

theorem ofList_cases (vs : List DatabaseVariable) : (∃ k, (ofList vs).1 = .ok k ∧ k.Keeps vs) ∨
    (∃ e, (ofList vs).1 = .error e) ∧ Clash vs :=
  keeps_empty.insertAll

theorem keeps_of_ofList (h : (ofList vs).1 = .ok k) : k.Keeps vs := by
  rcases ofList_cases vs with ⟨k', hk', hkeeps⟩ | ⟨⟨e, he⟩, -⟩
  · cases h.symm.trans hk'
    exact hkeeps
  · cases h.symm.trans he

/-- If the factory goes by the name, no two of the names that a catalog has lead to one factory. -/
theorem Keeps.not_clash (h : k.Keeps found) (derive : String → String)
    (hd : ∀ v ∈ found, v.testingFactory = derive v.name) :
    ¬ Clash found := by
  rintro ⟨v, hv, w, hw, hne, hfactory⟩
  obtain ⟨v', hv', hnv⟩ := h.exists_entry hv
  obtain ⟨w', hw', hnw⟩ := h.exists_entry hw
  have hsame : v'.testingFactory = w'.testingFactory := by
    rw [hd v' (h.mem_found hv'), hd w' (h.mem_found hw'), hnv, hnw, ← hd v hv, ← hd w hw, hfactory]
  have hvw : v' = w' := List.inj_on_of_nodup_map h.factories hv' hw' hsame
  exact hne (by rw [← hnv, ← hnw, hvw])

theorem ofList_error_iff (derive : String → String)
    (hd : ∀ v ∈ vs, v.testingFactory = derive v.name) :
    (∃ e, (ofList vs).1 = .error e) ↔ Clash vs := by
  rcases ofList_cases vs with ⟨k, hk, hkeeps⟩ | ⟨he, hclash⟩
  · refine iff_of_false ?_ (hkeeps.not_clash derive hd)
    rintro ⟨e, he⟩
    cases hk.symm.trans he
  · exact iff_of_true he hclash

/-! The views of a catalog. -/

theorem mem_toList : v ∈ k.toList ↔ v ∈ k.entries := List.mem_mergeSort

/-- The names in order are those of the variables in the order of their names. -/
theorem map_name_toList (k : Catalog) : k.toList.map (·.name) = k.names :=
  List.map_mergeSort fun _ _ _ _ => rfl

theorem Keeps.mem_names (h : k.Keeps found) {name : String} :
    name ∈ k.names ↔ name ∈ found.map (·.name) := by
  simp only [Catalog.names, List.mem_mergeSort, List.mem_map]
  constructor
  · rintro ⟨v, hv, rfl⟩
    exact ⟨v, h.mem_found hv, rfl⟩
  · rintro ⟨v, hv, rfl⟩
    exact h.exists_entry hv

theorem Keeps.pairwise_names (h : k.Keeps found) : k.names.Pairwise (· < ·) := by
  rw [← map_name_toList]
  exact List.pairwise_map.mpr (pairwise_lt_mergeSort_key h.names)

theorem Keeps.nodup_names (h : k.Keeps found) : k.names.Nodup := by
  refine h.pairwise_names.imp ?_
  rintro a _ hlt rfl
  exact String.lt_irrefl a hlt

theorem Keeps.toList_eq (h : k.Keeps found) : k.toList = k.names.filterMap k.get? := by
  rw [← map_name_toList, List.filterMap_map, List.filterMap_congr, List.filterMap_some]
  intro v hv
  exact h.get?_name (mem_toList.mp hv)

theorem length_names (k : Catalog) : k.names.length = k.size := by
  rw [Catalog.names, List.length_mergeSort, List.length_map, size]

theorem Keeps.size_eq (h : k.Keeps found) :
    k.size = (found.map (·.name)).toFinset.card := by
  rw [← length_names, ← List.toFinset_card_of_nodup h.nodup_names]
  congr 1
  ext name
  rw [List.mem_toFinset, List.mem_toFinset, h.mem_names]

/-- Two catalogs of the same names list them alike. -/
theorem Keeps.names_eq (h : k.Keeps found) (h' : k'.Keeps ws)
    (hm : ∀ name, name ∈ found.map (·.name) ↔ name ∈ ws.map (·.name)) : k.names = k'.names := by
  have hp : k.names.Perm k'.names := by
    rw [List.perm_ext_iff_of_nodup h.nodup_names h'.nodup_names]
    intro name
    rw [h.mem_names, h'.mem_names, hm]
  refine List.Perm.eq_of_pairwise ?_ h.pairwise_names h'.pairwise_names hp
  intro a b _ _ hab hba
  exact (String.lt_asymm hab hba).elim

/-- A catalog as a map from names to variables. -/
structure IsMapOf (k : Catalog) (found : List DatabaseVariable) : Prop where
  sorted : k.names.Pairwise (· < ·)
  toList_names : k.toList.map (·.name) = k.names
  toList_get? : k.toList = k.names.filterMap k.get?
  size : k.size = (found.map (·.name)).toFinset.card
  get? : ∀ name, k.get? name = found.find? fun v => v.name = name
  contains : ∀ name, k.contains name = true ↔ ∃ v, k.get? name = some v
  factories : ∀ v ∈ k.toList, ∀ w ∈ k.toList, v ≠ w → v.testingFactory ≠ w.testingFactory

theorem Keeps.isMapOf (h : k.Keeps found) : k.IsMapOf found where
  sorted := h.pairwise_names
  toList_names := map_name_toList k
  toList_get? := h.toList_eq
  size := h.size_eq
  get? := h.first
  contains _ := Option.isSome_iff_exists
  factories _ hv _ hw hne hfactory :=
    hne (List.inj_on_of_nodup_map h.factories (mem_toList.mp hv) (mem_toList.mp hw) hfactory)

end Catalog

/-! The names of testing factories. -/

/-- A name of ASCII letters, digits, underscores and dollar signs that no digit starts. -/
structure IsAsciiName (name : String) : Prop where
  start : ∃ c ∈ name.toList.head?, ObjectType.isNameStart c = true
  chars : ∀ c ∈ name.toList, (c.isAlphanum || c = '_' || c = '$') = true

/-- Names that differ in the case of their first letter and in nothing else. -/
def CaseTwins (a b : String) : Prop :=
  ∃ c d r, a.toList = c :: r ∧ b.toList = d :: r ∧ c ≠ d ∧ c.toLower = d.toLower

/-- A variable whose name ends with the suffix, and whose factory goes by the name. -/
structure DatabaseVariable.IsDerived (suffix : String) (v : DatabaseVariable) : Prop where
  name : IsAsciiName v.name
  ends : suffix.toList <:+ v.name.toList
  factory : v.testingFactory = testingFactoryName v.name suffix

/-- Upper case as a map of code points. -/
theorem toNat_toUpper (c : Char) : c.toUpper.toNat =
    if 97 ≤ c.toNat ∧ c.toNat ≤ 122 then c.toNat - 32 else c.toNat := by
  have hc : ('a'.val ≤ c.val ∧ c.val ≤ 'z'.val) ↔ (97 ≤ c.toNat ∧ c.toNat ≤ 122) := Iff.rfl
  unfold Char.toUpper
  by_cases h : 97 ≤ c.toNat ∧ c.toNat ≤ 122
  · rw [dif_pos (hc.mpr h), if_pos h]
    change (c.val + ('A'.val - 'a'.val)).toNat = c.val.toNat - 32
    have h' : 97 ≤ c.val.toNat ∧ c.val.toNat ≤ 122 := h
    have hd : ('A'.val - 'a'.val).toNat = 4294967264 := by decide
    rw [UInt32.toNat_add, hd]
    omega
  · rw [dif_neg (mt hc.mp h), if_neg h]

theorem toNat_toLower (c : Char) : c.toLower.toNat =
    if 65 ≤ c.toNat ∧ c.toNat ≤ 90 then c.toNat + 32 else c.toNat := by
  have hc : (c.val ≥ 'A'.val ∧ c.val ≤ 'Z'.val) ↔ (65 ≤ c.toNat ∧ c.toNat ≤ 90) := Iff.rfl
  unfold Char.toLower
  by_cases h : 65 ≤ c.toNat ∧ c.toNat ≤ 90
  · rw [dif_pos (hc.mpr h), if_pos h]
    change (c.val + ('a'.val - 'A'.val)).toNat = c.val.toNat + 32
    have h' : 65 ≤ c.val.toNat ∧ c.val.toNat ≤ 90 := h
    have hd : ('a'.val - 'A'.val).toNat = 32 := by decide
    rw [UInt32.toNat_add, hd]
    omega
  · rw [dif_neg (mt hc.mp h), if_neg h]

/-- Characters have the same upper case if and only if they have the same lower case. -/
theorem toUpper_eq_iff {c d : Char} : c.toUpper = d.toUpper ↔ c.toLower = d.toLower := by
  have hu := toNat_toUpper c
  have hu' := toNat_toUpper d
  have hl := toNat_toLower c
  have hl' := toNat_toLower d
  rw [← Char.toNat_inj, ← Char.toNat_inj]
  split at hu <;> split at hu' <;> split at hl <;> split at hl' <;> omega

/-- The first letter of a stem is one of ASCII, so that its upper case is a letter too. -/
theorem capitalize_eq_iff {s t : List Char} (hs : ∀ c ∈ s.head?, c.toNat < 0x80)
    (ht : ∀ c ∈ t.head?, c.toNat < 0x80) : capitalize s = capitalize t ↔
      s = t ∨ ∃ c d r, s = c :: r ∧ t = d :: r ∧ c ≠ d ∧ c.toLower = d.toLower := by
  cases s with
  | nil =>
    cases t with
    | nil => simp
    | cons d t => simp [capitalize, upperChar, ht d rfl]
  | cons c s =>
    cases t with
    | nil => simp [capitalize, upperChar, hs c rfl]
    | cons d t =>
      have hc : capitalize (c :: s) = c.toUpper :: s := by simp [capitalize, upperChar, hs c rfl]
      have hd : capitalize (d :: t) = d.toUpper :: t := by simp [capitalize, upperChar, ht d rfl]
      rw [hc, hd, List.cons.injEq, toUpper_eq_iff]
      constructor
      · rintro ⟨hl, rfl⟩
        by_cases hcd : c = d
        · exact Or.inl (by rw [hcd])
        · exact Or.inr ⟨c, d, s, rfl, rfl, hcd, hl⟩
      · rintro (h | ⟨c', d', r, hs, ht, -, hl⟩)
        · cases h
          exact ⟨rfl, rfl⟩
        · cases hs
          cases ht
          exact ⟨hl, rfl⟩

theorem testingFactoryName_of_stem (hs : suffix ≠ "") {name : String} {stem : List Char}
    (h : name.toList = stem ++ suffix.toList) :
    testingFactoryName name suffix = "createTesting" ++ String.ofList (capitalize stem) ++ suffix := by
  have he : suffix.isEmpty = false := by simpa using hs
  rw [testingFactoryName, he, before?_eq_some_iff.mpr h]
  rfl

theorem IsAsciiName.head_lt {name : String} {stem back : List Char} (h : IsAsciiName name)
    (hn : stem ++ back = name.toList) : ∀ c ∈ stem.head?, c.toNat < 0x80 := by
  intro c hc
  obtain ⟨r, rfl⟩ := List.head?_eq_some_iff.mp hc
  obtain ⟨d, hd, hstart⟩ := h.start
  rw [← hn, List.cons_append, List.head?_cons] at hd
  cases hd
  exact lt_of_isNameStart hstart

/-- Where two names with one suffix differ in their first letter, so do their stems. -/
theorem caseTwins_iff {a b : String} {s t : List Char} (ha : s ++ suffix.toList = a.toList)
    (hb : t ++ suffix.toList = b.toList) : CaseTwins a b ↔
      ∃ c d r, s = c :: r ∧ t = d :: r ∧ c ≠ d ∧ c.toLower = d.toLower := by
  unfold CaseTwins
  rw [← ha, ← hb]
  constructor
  · rintro ⟨c, d, r, hs, ht, hne, hl⟩
    have hlen : s.length = t.length := by
      have hs' := congrArg List.length hs
      have ht' := congrArg List.length ht
      simp only [List.length_append, List.length_cons] at hs' ht'
      omega
    cases s with
    | nil =>
      -- both names are the suffix
      obtain rfl : t = [] := List.eq_nil_of_length_eq_zero hlen.symm
      exact (hne (List.cons.inj (hs.symm.trans ht)).1).elim
    | cons c' s =>
      cases t with
      | nil => cases hlen
      | cons d' t =>
        obtain ⟨rfl, hs'⟩ := List.cons.inj hs
        obtain ⟨rfl, ht'⟩ := List.cons.inj ht
        obtain rfl : s = t := List.append_cancel_right (hs'.trans ht'.symm)
        exact ⟨c', d', s, rfl, rfl, hne, hl⟩
  · rintro ⟨c, d, r, rfl, rfl, hne, hl⟩
    exact ⟨c, d, r ++ suffix.toList, rfl, rfl, hne, hl⟩

/-- Two names with one suffix have one factory exactly if they are the same or differ in the case of
their first letter. -/
theorem testingFactoryName_eq_iff (hs : suffix ≠ "") {a b : String} (ha : IsAsciiName a)
    (hb : IsAsciiName b) (hsa : suffix.toList <:+ a.toList) (hsb : suffix.toList <:+ b.toList) :
    testingFactoryName a suffix = testingFactoryName b suffix ↔ a = b ∨ CaseTwins a b := by
  obtain ⟨s, hsa⟩ := hsa
  obtain ⟨t, hsb⟩ := hsb
  have hab : a = b ↔ s = t := by
    rw [← String.toList_inj, ← hsa, ← hsb, List.append_left_inj]
  have hfactory : testingFactoryName a suffix = testingFactoryName b suffix ↔
      capitalize s = capitalize t := by
    rw [testingFactoryName_of_stem hs hsa.symm, testingFactoryName_of_stem hs hsb.symm]
    simp [← String.toList_inj]
  rw [hfactory, hab, caseTwins_iff hsa hsb]
  exact capitalize_eq_iff (ha.head_lt hsa) (hb.head_lt hsb)

theorem CaseTwins.ne {a b : String} (h : CaseTwins a b) : a ≠ b := by
  obtain ⟨c, d, r, ha, hb, hne, -⟩ := h
  rintro rfl
  exact hne (List.cons.inj (ha.symm.trans hb)).1

namespace Catalog

theorem clash_iff (hs : suffix ≠ "") (hv : ∀ v ∈ vs, v.IsDerived suffix) :
    Clash vs ↔ ∃ v ∈ vs, ∃ w ∈ vs, CaseTwins v.name w.name := by
  have hpair : ∀ v ∈ vs, ∀ w ∈ vs, (v.name ≠ w.name ∧ v.testingFactory = w.testingFactory ↔
      CaseTwins v.name w.name) := by
    intro v hmv w hmw
    have hdv := hv v hmv
    have hdw := hv w hmw
    rw [hdv.factory, hdw.factory,
      testingFactoryName_eq_iff hs hdv.name hdw.name hdv.ends hdw.ends]
    exact ⟨fun h => h.2.resolve_left h.1, fun h => ⟨h.ne, Or.inr h⟩⟩
  constructor
  · rintro ⟨v, hmv, w, hmw, h⟩
    exact ⟨v, hmv, w, hmw, (hpair v hmv w hmw).mp h⟩
  · rintro ⟨v, hmv, w, hmw, h⟩
    exact ⟨v, hmv, w, hmw, (hpair v hmv w hmw).mpr h⟩

theorem ofList_error_iff_caseTwins (hs : suffix ≠ "") (hv : ∀ v ∈ vs, v.IsDerived suffix) :
    (∃ e, (ofList vs).1 = .error e) ↔ ∃ v ∈ vs, ∃ w ∈ vs, CaseTwins v.name w.name :=
  (ofList_error_iff (testingFactoryName · suffix) fun v hmv => (hv v hmv).factory).trans
    (clash_iff hs hv)

/-- Variables make a catalog unless two of their names differ in the case of the first letter only.
Neither that nor the names depend on the order in which the variables are found. The catalog is a
map from each name to the first variable of that name. -/
theorem ofList_derived (hs : suffix ≠ "") (hv : ∀ v ∈ vs, v.IsDerived suffix) :
    ((∃ e, (ofList vs).1 = .error e) ↔ ∃ v ∈ vs, ∃ w ∈ vs, CaseTwins v.name w.name) ∧
      (∀ ws, ws.Perm vs →
        ((∃ e, (ofList ws).1 = .error e) ↔ ∃ e, (ofList vs).1 = .error e) ∧
        ∀ k k', (ofList vs).1 = .ok k → (ofList ws).1 = .ok k' → k'.names = k.names) ∧
      ∀ k, (ofList vs).1 = .ok k → k.IsMapOf vs := by
  refine ⟨ofList_error_iff_caseTwins hs hv, fun ws hp => ⟨?_, ?_⟩, fun k hk => ?_⟩
  · have hw : ∀ w ∈ ws, w.IsDerived suffix := fun w hw => hv w (hp.mem_iff.mp hw)
    rw [ofList_error_iff_caseTwins hs hv, ofList_error_iff_caseTwins hs hw]
    simp only [hp.mem_iff]
  · intro k k' hk hk'
    refine (keeps_of_ofList hk').names_eq (keeps_of_ofList hk) fun name => ?_
    exact (hp.map _).mem_iff
  · exact (keeps_of_ofList hk).isMapOf

end Catalog

/-- Variables as they are found in modules, by the paths of these and their names. -/
def connections (found : List (String × String)) : List DatabaseVariable :=
  found.map fun x => ⟨x.2, x.1, testingFactoryName x.2 "Db"⟩

theorem isDerived_connections {found : List (String × String)}
    (h : (found.all fun x => x.2.toList.head?.any ObjectType.isNameStart &&
      (x.2.toList.all fun c => c.isAlphanum || c = '_' || c = '$') &&
      (before? ['D', 'b'] x.2.toList).isSome) = true) :
    ∀ v ∈ connections found, v.IsDerived "Db" := by
  intro v hv
  obtain ⟨x, hx, rfl⟩ := List.mem_map.mp hv
  have hname := List.all_eq_true.mp h x hx
  rw [Bool.and_eq_true, Bool.and_eq_true] at hname
  obtain ⟨⟨hstart, hchars⟩, hends⟩ := hname
  exact ⟨⟨(Option.any_eq_true _ _).mp hstart, List.all_eq_true.mp hchars⟩,
    before?_isSome_iff.mp hends, rfl⟩

def twinNames : List (String × String) := [("b.ts", "aDb"), ("a.ts", "ADb")]

def repeatedNames : List (String × String) := [("b.ts", "bDb"), ("a.ts", "Db"), ("c.ts", "bDb")]

theorem ofList_derived_connections :
    (∃ e, (Catalog.ofList (connections twinNames)).1 = .error e) ∧
      ∃ k, (Catalog.ofList (connections repeatedNames)).1 = .ok k ∧ k.names.Pairwise (· < ·) ∧
        k.size = 2 ∧ (k.get? "bDb").map (·.modulePath) = some "b.ts" := by
  constructor
  · have hv : ∀ v ∈ connections twinNames, v.IsDerived "Db" := isDerived_connections (by decide)
    refine (Catalog.ofList_derived (by decide) hv).1.mpr
      ⟨_, List.mem_cons_self .., _, List.mem_cons_of_mem _ (List.mem_cons_self ..), ?_⟩
    exact ⟨'a', 'A', ['D', 'b'], by decide, by decide, by decide, by decide⟩
  · have hv : ∀ v ∈ connections repeatedNames, v.IsDerived "Db" := isDerived_connections (by decide)
    have h : (Catalog.ofList (connections repeatedNames)).1.toOption.any fun k => k.size = 2 := by
      decide +kernel
    obtain ⟨k, hk, hsize⟩ := exists_ok_of_any h
    have hmap := (Catalog.ofList_derived (by decide) hv).2.2 k hk
    refine ⟨k, hk, hmap.sorted, of_decide_eq_true hsize, ?_⟩
    rw [hmap.get?]
    decide +kernel

end ConventionLint
