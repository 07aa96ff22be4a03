import Mathlib.Data.List.Induction
import ConventionLint.Proofs.Copies

/-! Files that are put where nothing was. The disk stays a tree, and all that was there is found as
before. -/
namespace ConventionLint

namespace Disk

open Volume (ancestors)

variable {d d' : Disk} {place parts front here r a : List String} {e x : Entry} {p : Path}

/-- Puts an entry in place of what was there, and makes the directories it needs. -/
def write (d : Disk) (place : List String) (e : Entry) : Disk where
  toVolume := d.toVolume.write place e
  links_eq_nil := by simp [Volume.write]
  locked_eq_nil := d.locked_eq_nil

/-- A disk on which every entry lies in a directory. -/
structure IsTree (d : Disk) : Prop where
  wellFormed : d.WellFormed
  parents : ∀ x ∈ d.entries, d.get? x.1.dropLast = some .directory

instance (d : Disk) : Decidable d.IsTree :=
  decidable_of_iff (d.WellFormed ∧ ∀ x ∈ d.entries, d.get? x.1.dropLast = some .directory)
    ⟨fun h => ⟨h.1, h.2⟩, fun h => ⟨h.1, h.2⟩⟩

/-- A place at which nothing is, and at which a file can be: its names are not too long, and no file
stands in the way to it. -/
structure IsFree (d : Disk) (place : List String) : Prop where
  names : ∀ s ∈ place, Path.IsName s
  short : ∀ s ∈ place, isTooLong s = false
  free : d.get? place = none
  way : ∀ a ∈ ancestors place, d.get? a = none ∨ d.get? a = some .directory

instance (d : Disk) (place : List String) : Decidable (d.IsFree place) :=
  decidable_of_iff ((∀ s ∈ place, Path.IsName s) ∧ (∀ s ∈ place, isTooLong s = false) ∧
    d.get? place = none ∧ ∀ a ∈ ancestors place, d.get? a = none ∨ d.get? a = some .directory)
    ⟨fun h => ⟨h.1, h.2.1, h.2.2.1, h.2.2.2⟩, fun h => ⟨h.1, h.2, h.3, h.4⟩⟩

theorem IsFree.ne_nil (h : d.IsFree place) : place ≠ [] := by
  rintro rfl
  cases h.free

theorem mem_ancestors : a ∈ ancestors place ↔ a ≠ [] ∧ ∃ r, r ≠ [] ∧ place = a ++ r := by
  fun_induction ancestors place generalizing a with
  | case1 => simp
  | case2 part =>
    refine iff_of_false (List.not_mem_nil) ?_
    rintro ⟨ha, r, hr, he⟩
    have hl := congrArg List.length he
    have ha := List.length_pos_iff.mpr ha
    have hr := List.length_pos_iff.mpr hr
    rw [List.length_append, List.length_singleton] at hl
    omega
  | case3 part rest hrest ih =>
    rw [List.mem_cons, List.mem_map]
    constructor
    · rintro (rfl | ⟨b, hb, rfl⟩)
      · exact ⟨List.cons_ne_nil _ _, rest, hrest, rfl⟩
      · obtain ⟨-, r, hr, rfl⟩ := ih.mp hb
        exact ⟨List.cons_ne_nil _ _, r, hr, rfl⟩
    · rintro ⟨ha, r, hr, he⟩
      obtain ⟨b, a, rfl⟩ := List.exists_cons_of_ne_nil ha
      obtain ⟨rfl, hrest⟩ := List.cons.inj he
      by_cases hb : a = []
      · exact Or.inl (by rw [hb])
      · exact Or.inr ⟨a, ih.mpr ⟨hb, r, hr, hrest⟩, rfl⟩

theorem nodup_ancestors (place : List String) : (ancestors place).Nodup := by
  fun_induction ancestors place with
  | case1 => exact List.nodup_nil
  | case2 => exact List.nodup_nil
  | case3 part rest _ ih =>
    rw [List.nodup_cons]
    constructor
    · intro hm
      obtain ⟨b, hb, he⟩ := List.mem_map.mp hm
      exact (mem_ancestors.mp hb).1 (List.cons.inj he).2
    · exact List.pairwise_map.mpr (ih.imp fun hne he => hne (List.cons.inj he).2)

theorem lookup_filter_ne (entries : List (List String × Entry)) (place parts : List String) :
    (entries.filter fun x => x.1 ≠ place).lookup parts
      = if parts = place then none else entries.lookup parts := by
  induction entries with
  | nil => simp
  | cons x entries ih =>
    rw [List.filter_cons, List.lookup_cons]
    by_cases hx : x.1 = place
    · rw [if_neg (by simpa using hx), ih]
      by_cases he : parts = place
      · rw [if_pos he, if_pos he]
      · rw [if_neg he, if_neg he, beq_false_of_ne fun h => he (h.trans hx)]
    · rw [if_pos (by simpa using hx), List.lookup_cons, ih]
      by_cases he : parts = place
      · have hne : (parts == x.1) = false := beq_false_of_ne fun h => hx (h.symm.trans he)
        rw [hne, if_pos he]
      · rw [if_neg he, if_neg he]

theorem lookup_map_directory (l : List (List String)) (parts : List String) :
    (l.map fun a => (a, Entry.directory)).lookup parts
      = if parts ∈ l then some .directory else none := by
  induction l with
  | nil => rfl
  | cons a l ih =>
    rw [List.map_cons, List.lookup_cons, ih]
    by_cases ha : parts = a
    · simp [ha]
    · simp [ha, beq_false_of_ne ha]

theorem not_mem_ancestors_self (place : List String) : place ∉ ancestors place := by
  intro hm
  obtain ⟨-, r, hr, he⟩ := mem_ancestors.mp hm
  exact hr (List.self_eq_append_right.mp he)

/-- An entry is put in its place, with the directories that it needs; all else stays. -/
theorem get?_write (hp : place ≠ []) (parts : List String) : (d.write place e).get? parts =
    if parts = place then some e
    else (d.get? parts).or (if parts ∈ ancestors place then some .directory else none) := by
  by_cases hn : parts = []
  · simp [Volume.get?, hn, Ne.symm hp]
  · have hwrite : (d.write place e).get? parts =
        ((if parts = place then none else d.entries.lookup parts).or
          (if parts ∈ (ancestors place).filter fun a => (d.get? a).isNone
            then some .directory else none)).or ([(place, e)].lookup parts) := by
      rw [Volume.get?, if_neg hn]
      dsimp only [write, Volume.write]
      rw [List.lookup_append, List.lookup_append, lookup_map_directory, lookup_filter_ne]
    rw [hwrite]
    by_cases he : parts = place
    · subst he
      simp [not_mem_ancestors_self]
    · have hd : d.get? parts = d.entries.lookup parts := by rw [Volume.get?, if_neg hn]
      have hlast : [(place, e)].lookup parts = none := by
        rw [List.lookup_cons, beq_false_of_ne he]
        rfl
      rw [if_neg he, if_neg he, ← hd, hlast, Option.or_none]
      cases hg : d.get? parts with
      | some x => rfl
      | none => simp [hg]

/-- All that is at some place of the first disk is there on the second one too. -/
def Within (d d' : Disk) : Prop := ∀ a x, d.get? a = some x → d'.get? a = some x

namespace IsFree

variable (h : d.IsFree place)
include h

theorem get?_write_place : (d.write place e).get? place = some e := by
  rw [get?_write h.ne_nil, if_pos rfl]

theorem within_write : d.Within (d.write place e) := by
  intro a x ha
  have hne : a ≠ place := by
    rintro rfl
    cases h.free.symm.trans ha
  rw [get?_write h.ne_nil, if_neg hne, ha]
  rfl

/-- The directories that the place lies in are there. -/
theorem get?_write_front (hp : place = front ++ r) (hr : r ≠ []) :
    (d.write place e).get? front = some .directory := by
  by_cases hf : front = []
  · rw [hf]
    rfl
  · have hm : front ∈ ancestors place := mem_ancestors.mpr ⟨hf, r, hr, hp⟩
    have hne : front ≠ place := fun he => not_mem_ancestors_self place (he ▸ hm)
    rw [get?_write h.ne_nil, if_neg hne, if_pos hm]
    rcases h.way front hm with hg | hg <;> rw [hg] <;> rfl

/-- No file is added but the one that is written. -/
theorem get?_write_file {bytes bytes' : List UInt8} :
    (d.write place (.file bytes)).get? a = some (.file bytes') ↔
      d.get? a = some (.file bytes') ∨ a = place ∧ bytes = bytes' := by
  rw [get?_write h.ne_nil]
  by_cases ha : a = place
  · subst ha
    simp [h.free]
  · rw [if_neg ha]
    cases hg : d.get? a with
    | some x => simp [ha]
    | none => simp [ha]

end IsFree

theorem IsTree.get?_of_mem (h : d.IsTree) {x : List String × Entry} (hx : x ∈ d.entries) :
    d.get? x.1 = some x.2 :=
  (h.wellFormed.get?_eq_some_iff (h.wellFormed.names x hx).1).mpr hx

/-- What something lies in is a directory. -/
theorem IsTree.get?_front (h : d.IsTree) (hp : d.get? (front ++ r) = some x) (hr : r ≠ []) :
    d.get? front = some .directory := by
  induction r using List.reverseRecOn generalizing x with
  | nil => exact (hr rfl).elim
  | append_singleton r part ih =>
    have hne : front ++ (r ++ [part]) ≠ [] := by simp
    have hdir := h.parents _ ((h.wellFormed.get?_eq_some_iff hne).mp hp)
    rw [← List.append_assoc, List.dropLast_concat] at hdir
    by_cases hn : r = []
    · rw [hn, List.append_nil] at hdir
      exact hdir
    · exact ih hdir hn

theorem IsTree.names_of_get? (h : d.IsTree) (hp : d.get? parts = some x) :
    ∀ s ∈ parts, Path.IsName s := by
  by_cases hn : parts = []
  · simp [hn]
  · exact (h.wellFormed.names _ ((h.wellFormed.get?_eq_some_iff hn).mp hp)).2

theorem mem_entries_write {y : List String × Entry} : y ∈ (d.write place e).entries ↔
    (y ∈ d.entries ∧ y.1 ≠ place) ∨
      (y.1 ∈ ancestors place ∧ d.get? y.1 = none ∧ y.2 = .directory) ∨ y = (place, e) := by
  have hmissing : y ∈ ((ancestors place).filter fun a => (d.get? a).isNone).map (·, Entry.directory) ↔
      y.1 ∈ ancestors place ∧ d.get? y.1 = none ∧ y.2 = .directory := by
    rw [List.mem_map]
    constructor
    · rintro ⟨a, ha, rfl⟩
      obtain ⟨ha, hn⟩ := List.mem_filter.mp ha
      exact ⟨ha, Option.isNone_iff_eq_none.mp hn, rfl⟩
    · rintro ⟨ha, hn, hy⟩
      exact ⟨y.1, List.mem_filter.mpr ⟨ha, Option.isNone_iff_eq_none.mpr hn⟩, by rw [← hy]⟩
  dsimp only [write, Volume.write]
  rw [List.mem_append, List.mem_append, hmissing, List.mem_filter, List.mem_singleton,
    decide_eq_true_iff, or_assoc]

theorem WellFormed.unique_write (h : d.WellFormed) :
    ((d.write place e).entries.map (·.1)).Nodup := by
  have hkeys : (d.write place e).entries.map (·.1) =
      (d.entries.filter fun x => x.1 ≠ place).map (·.1)
        ++ ((ancestors place).filter fun a => (d.get? a).isNone) ++ [place] := by
    simp [write, Volume.write, Function.comp_def]
  rw [hkeys, List.nodup_append, List.nodup_append]
  refine ⟨⟨?_, ?_, ?_⟩, by simp, ?_⟩
  · exact h.unique.sublist (List.filter_sublist.map _)
  · exact (nodup_ancestors place).sublist List.filter_sublist
  · rintro a ha _ hb rfl
    obtain ⟨x, hx, rfl⟩ := List.mem_map.mp ha
    have hm := (List.mem_filter.mp hx).1
    have hn := Option.isNone_iff_eq_none.mp (List.mem_filter.mp hb).2
    rw [(h.get?_eq_some_iff (h.names x hm).1).mpr hm] at hn
    cases hn
  · rintro a ha b hb rfl
    rw [List.mem_singleton.mp hb] at ha
    rcases List.mem_append.mp ha with ha | ha
    · obtain ⟨x, hx, he⟩ := List.mem_map.mp ha
      exact of_decide_eq_true (List.mem_filter.mp hx).2 he
    · exact not_mem_ancestors_self place (List.mem_filter.mp ha).1

/-- A disk stays a tree when something is put at a free place. -/
theorem IsTree.write (h : d.IsTree) (hf : d.IsFree place) : (d.write place e).IsTree where
  wellFormed := by
    refine ⟨?_, h.wellFormed.unique_write⟩
    intro y hy
    rcases mem_entries_write.mp hy with ⟨hm, -⟩ | ⟨hm, -⟩ | rfl
    · exact h.wellFormed.names y hm
    · obtain ⟨hn, r, -, hr⟩ := mem_ancestors.mp hm
      refine ⟨hn, fun s hs => hf.names s ?_⟩
      rw [hr]
      exact List.mem_append_left r hs
    · exact ⟨hf.ne_nil, hf.names⟩
  parents y hy := by
    -- what is new lies on the way to the place
    have hway : ∀ a r, a ≠ [] → place = a ++ r →
        (d.write place e).get? a.dropLast = some .directory := by
      intro a r ha hp
      refine hf.get?_write_front (r := a.getLast ha :: r) ?_ (List.cons_ne_nil _ _)
      rw [hp, ← List.singleton_append, ← List.append_assoc, List.dropLast_concat_getLast]
    rcases mem_entries_write.mp hy with ⟨hm, -⟩ | ⟨hm, -⟩ | rfl
    · exact hf.within_write _ _ (h.parents y hm)
    · obtain ⟨hn, r, -, hr⟩ := mem_ancestors.mp hm
      exact hway y.1 r hn hr
    · exact hway place [] hf.ne_nil (List.append_nil place).symm

/-! What was found before is found again. -/

theorem walkFrom_within (h : d.Within d') {text : String}
    (hw : d.walkFrom text here parts ≠ .error (.missing text)) :
    d'.walkFrom text here parts = d.walkFrom text here parts := by
  induction parts generalizing here with
  | nil => rfl
  | cons part parts ih =>
    rw [Volume.walkFrom] at hw ⊢
    rw [Volume.walkFrom, links_eq_nil, links_eq_nil]
    cases hg : d.get? here with
    | none =>
      rw [hg] at hw
      exact (hw rfl).elim
    | some x =>
      rw [hg, links_eq_nil] at hw
      rw [h here x hg]
      cases x with
      | file bytes => rfl
      | directory =>
        dsimp only at hw ⊢
        split at hw
        · rename_i hl
          rw [if_pos hl, if_pos hl]
        · rename_i hl
          rw [if_neg hl, if_neg hl]
          exact ih hw

theorem find_within (h : d.Within d') (hd : d'.workingDirectory = d.workingDirectory)
    (hp : d.find p ≠ .error (.missing p.toString)) : d'.find p = d.find p := by
  rw [Volume.find_eq] at hp ⊢
  rw [Volume.find_eq, hd]
  cases hv : p.isValid with
  | false => rfl
  | true =>
    rw [hv, if_pos rfl] at hp
    rw [if_pos rfl, if_pos rfl]
    have hw : d.walkFrom p.toString [] (d.workingDirectory.join p).parts
        ≠ .error (.missing p.toString) := by
      intro hw
      rw [hw] at hp
      exact hp rfl
    rw [walkFrom_within h hw]
    cases hr : d.walkFrom p.toString [] (d.workingDirectory.join p).parts with
    | error e => rfl
    | ok result =>
      rw [hr] at hp
      dsimp only at hp ⊢
      cases hg : d.get? result with
      | none =>
        rw [hg] at hp
        exact (hp rfl).elim
      | some x => rw [h result x hg]

theorem readText_within (h : d.Within d') (hd : d'.workingDirectory = d.workingDirectory)
    (hp : d.find p ≠ .error (.missing p.toString)) : d'.readText p = d.readText p := by
  unfold Volume.readText Volume.readBytes
  rw [find_within h hd hp, locked_eq_nil, locked_eq_nil]
  rfl

/-- The way from a directory to what lies below it is open, as far as the names are not too long. -/
theorem IsTree.walkFrom_ne_missing (h : d.IsTree) (text : String)
    (hp : d.get? (here ++ parts) = some x) :
    d.walkFrom text here parts ≠ .error (.missing text) := by
  induction parts generalizing here with
  | nil =>
    intro hw
    cases hw
  | cons part parts ih =>
    have hname := h.names_of_get? hp part (by simp)
    rw [Volume.walkFrom, h.get?_front hp (List.cons_ne_nil _ _), links_eq_nil]
    dsimp only
    rw [Path.step, if_neg hname.2.2.1, Path.land_nil]
    split
    · intro hw
      cases hw
    · exact ih (by simpa using hp)

/-- What lies below a directory is not missing on the way by that directory. -/
theorem IsTree.find_below_ne_missing (h : d.IsTree) (hd : d.isDirectory p = .ok true)
    (hp : d.get? (d.resolve p ++ parts) = some x) :
    d.find (p.below parts) ≠ .error (.missing (p.below parts).toString) := by
  have hnames : ∀ s ∈ parts, Path.IsName s :=
    fun s hs => h.names_of_get? hp s (List.mem_append_right _ hs)
  have hway : d.walkFrom (p.below parts).toString [] (d.workingDirectory.join (p.below parts)).parts
      = d.walkFrom (p.below parts).toString (d.resolve p) parts := by
    rw [Path.parts_join_below, Volume.walkFrom_append,
      Volume.walkFrom_of_find (Volume.isDirectory_eq_true_iff.mp hd)]
    rfl
  rw [Volume.find_eq]
  split
  · cases hw : d.walkFrom (p.below parts).toString []
        (d.workingDirectory.join (p.below parts)).parts with
    | error e =>
      rintro ⟨⟩
      exact h.walkFrom_ne_missing _ hp (hway.symm.trans hw)
    | ok result =>
      have hresult : result = d.resolve (p.below parts) := Volume.eq_of_walkFrom hw
      rw [resolve_eq, Path.resolve_below hnames, ← resolve_eq] at hresult
      dsimp only
      rw [hresult, hp]
      intro he
      cases he
  · intro he
    cases he

end Disk

end ConventionLint
