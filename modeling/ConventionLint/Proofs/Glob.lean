import ConventionLint.Glob
import ConventionLint.Proofs.Consistency
import ConventionLint.Proofs.Paths

/-! What patterns find: every component leads from place to place, and the files at the end are
listed once and in order. -/
namespace ConventionLint.Glob

variable {d : Volume} {last : Bool} {f g : Found} {t : Step} {ts : List Step}

theorem mem_children {place : List String} {name : String} {e : Entry} :
    (name, e) ∈ children d place ↔ (place ++ [name], e) ∈ d.entries := by
  unfold children
  rw [List.mem_filterMap]
  constructor
  · rintro ⟨⟨here, e'⟩, hm, he⟩
    split at he
    · rename_i hb
      cases he
      have hhere : here = place ++ [name] := Path.below?_eq_some_iff.mp hb
      exact hhere ▸ hm
    · cases he
  · intro hm
    exact ⟨_, hm, by simp [Path.below?_eq_some_iff.mpr rfl]⟩

theorem mem_advance_deep : g ∈ advance d last f .deep ↔
    g = f ∨ ∃ part parts, (f.place ++ part :: parts, .directory) ∈ d.entries ∧
      g = ⟨f.path ++ part :: parts, f.place ++ part :: parts⟩ := by
  unfold advance directories
  rw [List.mem_cons, List.mem_filterMap]
  refine or_congr Iff.rfl ⟨?_, ?_⟩
  · rintro ⟨⟨here, e⟩, hm, he⟩
    split at he
    · rename_i part parts hentry hb
      dsimp only at hentry hb
      subst hentry
      have hhere : here = f.place ++ part :: parts := Path.below?_eq_some_iff.mp hb
      subst hhere
      cases he
      exact ⟨part, parts, hm, rfl⟩
    · cases he
  · rintro ⟨part, parts, hm, rfl⟩
    exact ⟨_, hm, by simp [Path.below?_eq_some_iff.mpr rfl]⟩

/-- A place that is reached from another one by some components. -/
def Found.below (f : Found) (parts : List String) : Found := ⟨f.path ++ parts, f.place ++ parts⟩

theorem below_nil (f : Found) : f.below [] = f := by
  simp [Found.below]

theorem below_below (f : Found) (front parts : List String) :
    (f.below front).below parts = f.below (front ++ parts) := by
  simp [Found.below]

theorem mem_advance_name (hl : d.links = []) {s : String} : g ∈ advance d last f (.name s) ↔
    (∃ e, d.get? (f.place ++ [s]) = some e ∧ (last = true ∨ e = .directory)) ∧ g = f.below [s] := by
  dsimp only [advance, Found.below]
  rw [hl, Path.land_nil]
  rcases d.get? (f.place ++ [s]) with _ | _ | _
  · simp
  · cases last <;> simp
  · simp

theorem linkedChildren_eq_nil (hl : d.links = []) (place : List String) :
    linkedChildren d place = [] := by
  rw [linkedChildren, hl, List.filterMap_nil]

theorem mem_advance_fit (hl : d.links = []) {ps : List Piece} : g ∈ advance d last f (.fit ps) ↔
    ∃ name e, (f.place ++ [name], e) ∈ d.entries ∧ fits ps name.toList = true ∧
      (last = true ∨ e = .directory) ∧ g = f.below [name] := by
  unfold advance
  dsimp only
  rw [linkedChildren_eq_nil hl, List.append_nil, hl, List.mem_filterMap]
  constructor
  · rintro ⟨⟨name, e⟩, hm, he⟩
    obtain ⟨hfit, hg⟩ := Option.ite_none_right_eq_some.mp he
    cases hg
    rw [Bool.and_eq_true, Bool.or_eq_true, decide_eq_true_iff] at hfit
    exact ⟨name, e, mem_children.mp hm, hfit.1, hfit.2, rfl⟩
  · rintro ⟨name, e, hm, hfit, he, rfl⟩
    refine ⟨(name, e), mem_children.mpr hm, ?_⟩
    rw [if_pos]
    · rfl
    rw [Bool.and_eq_true, Bool.or_eq_true, decide_eq_true_iff]
    exact ⟨hfit, he⟩

/-- One component leads to the place itself, if any number of directories counts, or to a place with
a longer path. -/
theorem path_of_mem_advance (h : g ∈ advance d last f t) :
    g = f ∨ ∃ part parts, g.path = f.path ++ part :: parts := by
  cases t with
  | deep =>
    obtain rfl | ⟨part, parts, -, rfl⟩ := mem_advance_deep.mp h
    · exact Or.inl rfl
    · exact Or.inr ⟨part, parts, rfl⟩
  | up =>
    rw [List.mem_singleton.mp h]
    exact Or.inr ⟨_, [], rfl⟩
  | name s =>
    dsimp only [advance] at h
    split at h
    · rw [List.mem_singleton.mp h]
      exact Or.inr ⟨s, [], rfl⟩
    · split at h
      · rw [List.mem_singleton.mp h]
        exact Or.inr ⟨s, [], rfl⟩
      · cases h
    · cases h
  | fit ps =>
    obtain ⟨⟨name, e⟩, -, he⟩ := List.mem_filterMap.mp h
    obtain ⟨-, hg⟩ := Option.ite_none_right_eq_some.mp he
    cases hg
    exact Or.inr ⟨name, [], rfl⟩

/-- What is found from some places is found from one of them. -/
theorem mem_select {fs : List Found} : g ∈ select d ts fs ↔ ∃ f ∈ fs, g ∈ select d ts [f] := by
  induction ts generalizing fs with
  | nil => simp [select]
  | cons t ts ih =>
    simp only [select, List.flatMap_cons, List.flatMap_nil, List.append_nil]
    rw [ih]
    constructor
    · rintro ⟨f', hf', hg⟩
      obtain ⟨f, hf, hf'⟩ := List.mem_flatMap.mp hf'
      exact ⟨f, hf, ih.mpr ⟨f', hf', hg⟩⟩
    · rintro ⟨f, hf, hg⟩
      obtain ⟨f', hf', hg⟩ := ih.mp hg
      exact ⟨f', List.mem_flatMap.mpr ⟨f, hf, hf'⟩, hg⟩

theorem mem_select_cons : g ∈ select d (t :: ts) [f] ↔
    ∃ f' ∈ advance d ts.isEmpty f t, g ∈ select d ts [f'] := by
  rw [select, List.flatMap_cons, List.flatMap_nil, List.append_nil]
  exact mem_select

/-- Only from a place that one is at already nothing has to be passed. -/
theorem place_of_path_nil (hg : g ∈ select d ts [f]) (hp : g.path = []) : g = f := by
  induction ts generalizing f with
  | nil => exact List.mem_singleton.mp hg
  | cons t ts ih =>
    obtain ⟨f', hf', hg⟩ := mem_select_cons.mp hg
    obtain rfl := ih hg
    obtain rfl | ⟨part, parts, hpath⟩ := path_of_mem_advance hf'
    · rfl
    · rw [hp] at hpath
      simp at hpath

/-- Without links, and as long as no component goes up, the way to a place is where it is. -/
theorem below_of_mem_advance (hl : d.links = []) (ht : t ≠ .up) (hg : g ∈ advance d last f t) :
    ∃ parts, g = f.below parts := by
  cases t with
  | deep =>
    obtain rfl | ⟨part, parts, -, rfl⟩ := mem_advance_deep.mp hg
    · exact ⟨[], (below_nil g).symm⟩
    · exact ⟨part :: parts, rfl⟩
  | up => exact (ht rfl).elim
  | name s => exact ⟨[s], ((mem_advance_name hl).mp hg).2⟩
  | fit ps =>
    obtain ⟨name, _, -, -, -, rfl⟩ := (mem_advance_fit hl).mp hg
    exact ⟨[name], rfl⟩

theorem below_of_mem_select (hl : d.links = []) (hup : ∀ t ∈ ts, t ≠ .up)
    (hg : g ∈ select d ts [f]) : ∃ parts, g = f.below parts := by
  induction ts generalizing f with
  | nil =>
    rw [List.mem_singleton.mp hg]
    exact ⟨[], (below_nil f).symm⟩
  | cons t ts ih =>
    obtain ⟨f', hf', hg⟩ := mem_select_cons.mp hg
    obtain ⟨front, rfl⟩ := below_of_mem_advance hl (hup t (List.mem_cons_self ..)) hf'
    obtain ⟨parts, rfl⟩ := ih (fun t ht => hup t (List.mem_cons_of_mem _ ht)) hg
    exact ⟨front ++ parts, below_below f front parts⟩

/-- A component with a name that is too long. -/
def Step.isOverlong : Step → Bool
  | .name s => isTooLong s
  | _ => false

theorem overlong?_eq_none_iff : t.overlong? f = none ↔ t.isOverlong = false := by
  cases t <;> simp [Step.overlong?, Step.isOverlong]

theorem overlong?_cons {fs : List Found} : overlong? d (t :: ts) fs = none ↔
    (fs ≠ [] → t.isOverlong = false) ∧
      overlong? d ts (fs.flatMap fun f => advance d ts.isEmpty f t) = none := by
  have hfirst : fs.findSome? t.overlong? = none ↔ (fs ≠ [] → t.isOverlong = false) := by
    simp only [List.findSome?_eq_none_iff, overlong?_eq_none_iff]
    cases fs with
    | nil => simp
    | cons f fs => exact ⟨fun h _ => h f (List.mem_cons_self ..), fun h _ _ => h (by simp)⟩
  rw [overlong?, ← hfirst]
  cases fs.findSome? t.overlong? <;> simp

/-- No name that is asked for is too long if that is so from each of the places. -/
theorem overlong?_mem {fs : List Found} :
    overlong? d ts fs = none ↔ ∀ f ∈ fs, overlong? d ts [f] = none := by
  induction ts generalizing fs with
  | nil => simp [overlong?]
  | cons t ts ih =>
    simp only [overlong?_cons]
    rw [ih]
    constructor
    · rintro ⟨ht, hnext⟩ f hf
      refine ⟨fun _ => ht (List.ne_nil_of_mem hf), ih.mpr fun g hg => ?_⟩
      rw [List.flatMap_singleton] at hg
      exact hnext g (List.mem_flatMap.mpr ⟨f, hf, hg⟩)
    · intro h
      refine ⟨fun hn => ?_, fun g hg => ?_⟩
      · obtain ⟨f, hf⟩ := List.exists_mem_of_ne_nil fs hn
        exact (h f hf).1 (List.cons_ne_nil _ _)
      · obtain ⟨f, hf, hg⟩ := List.mem_flatMap.mp hg
        refine ih.mp (h f hf).2 g ?_
        rwa [List.flatMap_singleton]

/-- From one place, the first component and all that follow it have to be short enough. -/
theorem overlong?_place : overlong? d (t :: ts) [f] = none ↔
    t.isOverlong = false ∧ ∀ g ∈ advance d ts.isEmpty f t, overlong? d ts [g] = none := by
  rw [overlong?_cons, overlong?_mem, List.flatMap_singleton]
  simp

theorem step_eq_up {s : String} (h : step s = .ok .up) : s = ".." := by
  unfold step at h
  split at h
  · cases h
  · split at h
    · assumption
    · split at h
      · cases h
      · split at h <;> cases h

theorem ne_up_of_mapM {names : List String} (h : names.mapM step = .ok ts) (hn : ".." ∉ names) :
    ∀ t ∈ ts, t ≠ .up := by
  induction names generalizing ts with
  | nil =>
    cases h
    simp
  | cons s names ih =>
    rw [List.mapM_cons] at h
    obtain ⟨t, ht, h⟩ := Conventions.bind_eq_ok h
    obtain ⟨us, hus, h⟩ := Conventions.bind_eq_ok h
    cases h
    rw [List.mem_cons, not_or] at hn
    intro u hu
    rcases List.mem_cons.mp hu with rfl | hu
    · rintro rfl
      exact hn.1 (step_eq_up ht).symm
    · exact ih hus hn.2 u hu

variable {directory : List String} {pattern : String} {found : List (List String)}

/-- A pattern without two dots as a component does not go up. -/
theorem ne_up_of_steps (h : steps pattern = .ok ts) (hn : ".." ∉ (Path.parse pattern).parts) :
    ∀ t ∈ ts, t ≠ .up := by
  unfold steps at h
  dsimp only at h
  split at h
  · cases h
  · obtain ⟨us, hus, h⟩ := Conventions.bind_eq_ok h
    cases h
    intro t ht
    rcases List.mem_cons.mp ht with rfl | ht
    · simp
    · exact ne_up_of_mapM hus hn t ht

/-- A search ends well if the pattern is one and no name that is asked for is too long. -/
theorem files_eq_ok_iff : files d directory pattern = .ok found ↔
    ∃ ts, steps pattern = .ok ts ∧ overlong? d ts [⟨[], directory⟩] = none ∧
      found = filesAlong d ts directory := by
  unfold files
  cases hs : steps pattern with
  | error e => simp
  | ok ts =>
    cases ho : overlong? d ts [⟨[], directory⟩] with
    | some path => simp [ho]
    | none => simp [ho, eq_comm]

theorem mem_filesAlong {parts : List String} : parts ∈ filesAlong d ts directory ↔
    ∃ f ∈ select d ts [⟨[], directory⟩],
      f.path = parts ∧ ∃ bytes, d.get? f.place = some (.file bytes) := by
  unfold filesAlong
  rw [List.mem_eraseDups, List.mem_mergeSort, List.mem_map]
  refine exists_congr fun f => ?_
  rw [List.mem_filter, and_assoc, and_comm (a := f.path = parts)]
  refine and_congr_right fun _ => and_congr_left fun _ => ?_
  rcases d.get? f.place with _ | bytes | _ <;> simp [Entry.isFile]

/-- The files that a pattern matches are those that its components lead to. -/
theorem mem_files (h : files d directory pattern = .ok found) (ht : steps pattern = .ok ts)
    {parts : List String} : parts ∈ found ↔ ∃ f ∈ select d ts [⟨[], directory⟩],
      f.path = parts ∧ ∃ bytes, d.get? f.place = some (.file bytes) := by
  obtain ⟨ts', ht', -, rfl⟩ := files_eq_ok_iff.mp h
  cases ht.symm.trans ht'
  exact mem_filesAlong

/-- A file below a directory is not the directory. -/
theorem ne_nil_of_mem_files (h : files d directory pattern = .ok found)
    (hd : d.get? directory = some .directory) {parts : List String} (hp : parts ∈ found) :
    parts ≠ [] := by
  rintro rfl
  obtain ⟨ts, ht, -⟩ := files_eq_ok_iff.mp h
  obtain ⟨f, hf, hpath, bytes, hfile⟩ := (mem_files h ht).mp hp
  rw [place_of_path_nil hf hpath, hd] at hfile
  cases hfile

/-- Once repetitions are left out, elements that were in order are in order and differ. -/
theorem pairwise_eraseDups {α : Type} [BEq α] [LawfulBEq α] {r : α → α → Prop} :
    ∀ {l : List α}, l.Pairwise r → l.eraseDups.Pairwise fun a b => r a b ∧ a ≠ b
  | [], _ => List.Pairwise.nil
  | a :: l, h => by
    rw [List.eraseDups_cons, List.pairwise_cons]
    obtain ⟨ha, hl⟩ := List.pairwise_cons.mp h
    constructor
    · intro b hb
      rw [List.mem_eraseDups, List.mem_filter] at hb
      refine ⟨ha b hb.1, ?_⟩
      rintro rfl
      simp at hb
    · exact pairwise_eraseDups (hl.sublist List.filter_sublist)
  termination_by l => l.length
  decreasing_by
    exact Nat.lt_succ_of_le (List.length_filter_le _ _)

theorem pairwise_files (h : files d directory pattern = .ok found) :
    found.Pairwise fun p q => Path.le p q = true ∧ p ≠ q := by
  obtain ⟨ts, -, -, rfl⟩ := files_eq_ok_iff.mp h
  exact pairwise_eraseDups (List.pairwise_mergeSort Path.le_trans Path.le_total _)

end ConventionLint.Glob
