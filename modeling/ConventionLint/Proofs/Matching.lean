import ConventionLint.Proofs.FreshFiles

/-! Which files a pattern finds on a tree: those whose paths it matches. A pattern that goes up is not
considered, since it may lead to a file by several paths. -/
namespace ConventionLint.Glob

variable {d : Disk} {f g : Found} {t : Step} {ts : List Step} {parts : List String}
  {bytes : List UInt8}

/-- Whether the path of a file goes by the components of a pattern. Any number of directories may
stand for one of them, but never the file itself. -/
inductive Matches : List Step → List String → Prop where
  | nil : Matches [] []
  | deep {ts : List Step} {s : String} {parts : List String} (front : List String) :
      Matches ts (s :: parts) → Matches (.deep :: ts) (front ++ s :: parts)
  | name {ts : List Step} {s : String} {parts : List String} :
      Matches ts parts → Matches (.name s :: ts) (s :: parts)
  | fit {ts : List Step} {ps : List Piece} {s : String} {parts : List String} :
      fits ps s.toList = true → Matches ts parts → Matches (.fit ps :: ts) (s :: parts)

theorem Matches.ne_nil (h : Matches (t :: ts) parts) : parts ≠ [] := by
  cases h with
  | deep front _ => simp
  | name _ => simp
  | fit _ _ => simp

/-- A name of the pattern is one of the path. -/
theorem Matches.isTooLong_eq_false (h : Matches ts parts) (hshort : ∀ s ∈ parts, isTooLong s = false)
    {s : String} (hs : .name s ∈ ts) : isTooLong s = false := by
  induction h with
  | nil => cases hs
  | deep front _ ih =>
    refine ih (fun r hr => hshort r (List.mem_append_right _ hr)) ?_
    simpa using hs
  | name _ ih =>
    obtain ⟨hhead, htail⟩ := List.forall_mem_cons.mp hshort
    rcases List.mem_cons.mp hs with hs | hs
    · cases hs
      exact hhead
    · exact ih htail hs
  | fit _ _ ih =>
    refine ih (List.forall_mem_cons.mp hshort).2 ?_
    simpa using hs

/-- Only a name of the pattern can be too long. -/
theorem exists_name_of_overlong? {v : Volume} {fs : List Found} {path : List String}
    (h : overlong? v ts fs = some path) : ∃ s, .name s ∈ ts ∧ isTooLong s = true := by
  induction ts generalizing fs with
  | nil => cases h
  | cons t ts ih =>
    rw [overlong?] at h
    split at h
    · rename_i found hfound
      obtain ⟨f, -, hf⟩ := List.exists_of_findSome?_eq_some hfound
      cases t with
      | name s =>
        obtain ⟨hlong, -⟩ := Option.ite_none_right_eq_some.mp hf
        exact ⟨s, List.mem_cons_self .., hlong⟩
      | deep => cases hf
      | up => cases hf
      | fit ps => cases hf
    · obtain ⟨s, hs, hlong⟩ := ih h
      exact ⟨s, List.mem_cons_of_mem _ hs, hlong⟩

theorem below_cons (f : Found) (s : String) (parts : List String) :
    f.below (s :: parts) = (f.below [s]).below parts :=
  (below_below f [s] parts).symm

/-- Where one component leads, on a tree: to a place below, and if more components follow that is a
directory. -/
theorem advance_cases (h : d.IsTree) (ht : t ≠ .up)
    (hf : d.get? f.place = some .directory) {last : Bool} (hg : g ∈ advance d last f t) :
    ∃ parts, g = f.below parts ∧ (last = false → d.get? g.place = some .directory) ∧
      ((t = .deep ∧ d.get? g.place = some .directory) ∨
        ∃ s, parts = [s] ∧ (t = .name s ∨ ∃ ps, t = .fit ps ∧ fits ps s.toList = true)) := by
  cases t with
  | deep =>
    rcases mem_advance_deep.mp hg with rfl | ⟨part, parts, hm, rfl⟩
    · exact ⟨[], (below_nil g).symm, fun _ => hf, Or.inl ⟨rfl, hf⟩⟩
    · have hdir := h.get?_of_mem hm
      exact ⟨part :: parts, rfl, fun _ => hdir, Or.inl ⟨rfl, hdir⟩⟩
  | up => exact (ht rfl).elim
  | name s =>
    obtain ⟨⟨e, he, hlast⟩, rfl⟩ := (mem_advance_name d.links_eq_nil).mp hg
    refine ⟨[s], rfl, ?_, Or.inr ⟨s, rfl, Or.inl rfl⟩⟩
    rintro rfl
    rcases hlast with hl | rfl
    · cases hl
    · exact he
  | fit ps =>
    obtain ⟨s, e, hm, hfit, hlast, rfl⟩ := (mem_advance_fit d.links_eq_nil).mp hg
    refine ⟨[s], rfl, ?_, Or.inr ⟨s, rfl, Or.inr ⟨ps, rfl, hfit⟩⟩⟩
    rintro rfl
    rcases hlast with hl | rfl
    · cases hl
    · exact h.get?_of_mem hm

theorem matches_of_mem_select (h : d.IsTree) (hup : ∀ t ∈ ts, t ≠ .up)
    (hf : ts ≠ [] → d.get? f.place = some .directory) (hg : g ∈ select d ts [f])
    (hfile : d.get? g.place = some (.file bytes)) : ∃ parts, Matches ts parts ∧ g = f.below parts := by
  induction ts generalizing f with
  | nil =>
    obtain rfl := List.mem_singleton.mp hg
    exact ⟨[], .nil, (below_nil g).symm⟩
  | cons t ts ih =>
    obtain ⟨f', hf', hg⟩ := mem_select_cons.mp hg
    obtain ⟨front, rfl, hdir, hcase⟩ := advance_cases h (hup t (List.mem_cons_self ..))
      (hf (List.cons_ne_nil _ _)) hf'
    have hnext : ts ≠ [] → d.get? (f.below front).place = some .directory := by
      intro hn
      exact hdir (by simpa using hn)
    obtain ⟨parts, hm, rfl⟩ := ih (fun t ht => hup t (List.mem_cons_of_mem _ ht)) hnext hg
    rw [below_below] at hfile ⊢
    rcases hcase with ⟨rfl, hdeep⟩ | ⟨s, rfl, rfl | ⟨ps, rfl, hfit⟩⟩
    · cases parts with
      | nil =>
        -- a directory is no file
        rw [List.append_nil, hdeep] at hfile
        cases hfile
      | cons s parts => exact ⟨front ++ s :: parts, .deep front hm, rfl⟩
    · exact ⟨s :: parts, .name hm, rfl⟩
    · exact ⟨s :: parts, .fit hfit hm, rfl⟩

/-- On the way to a file there are directories, as long as components follow. -/
theorem exists_of_matches (h : d.IsTree) (hm : Matches ts parts)
    (hfile : d.get? (f.below parts).place = some (.file bytes)) :
    ∃ e, d.get? f.place = some e ∧ (ts.isEmpty = true ∨ e = .directory) := by
  cases ts with
  | nil =>
    cases hm
    rw [below_nil] at hfile
    exact ⟨_, hfile, Or.inl rfl⟩
  | cons t ts => exact ⟨.directory, h.get?_front hfile hm.ne_nil, Or.inr rfl⟩

theorem mem_select_of_matches (h : d.IsTree) (hm : Matches ts parts)
    (hfile : d.get? (f.below parts).place = some (.file bytes)) :
    f.below parts ∈ select d ts [f] := by
  induction hm generalizing f with
  | nil =>
    rw [below_nil]
    exact List.mem_singleton_self f
  | @deep ts s parts front hm ih =>
    rw [← below_below] at hfile ⊢
    refine mem_select_cons.mpr ⟨f.below front, mem_advance_deep.mpr ?_, ih hfile⟩
    cases front with
    | nil => exact Or.inl (below_nil f)
    | cons part front =>
      have hdir := h.get?_front hfile (List.cons_ne_nil _ _)
      have hne : f.place ++ part :: front ≠ [] := by simp
      exact Or.inr ⟨part, front, (h.wellFormed.get?_eq_some_iff hne).mp hdir, rfl⟩
  | @name ts s parts hm ih =>
    rw [below_cons] at hfile ⊢
    obtain ⟨e, he, hlast⟩ := exists_of_matches h hm hfile
    exact mem_select_cons.mpr
      ⟨f.below [s], (mem_advance_name d.links_eq_nil).mpr ⟨⟨e, he, hlast⟩, rfl⟩, ih hfile⟩
  | @fit ts ps s parts hfit hm ih =>
    rw [below_cons] at hfile ⊢
    obtain ⟨e, he, hlast⟩ := exists_of_matches h hm hfile
    have hne : f.place ++ [s] ≠ [] := by simp
    have hentry := (h.wellFormed.get?_eq_some_iff hne).mp he
    exact mem_select_cons.mpr
      ⟨f.below [s], (mem_advance_fit d.links_eq_nil).mpr ⟨s, e, hentry, hfit, hlast, rfl⟩, ih hfile⟩

variable {directory : List String} {pattern : String} {found : List (List String)}

/-- A pattern finds the files that it matches. -/
theorem mem_files_iff (h : d.IsTree) (hd : d.get? directory = some .directory)
    (hfiles : files d directory pattern = .ok found) (hsteps : steps pattern = .ok ts)
    (hup : ∀ t ∈ ts, t ≠ .up) : parts ∈ found ↔
      Matches ts parts ∧ ∃ bytes, d.get? (directory ++ parts) = some (.file bytes) := by
  rw [mem_files hfiles hsteps]
  constructor
  · rintro ⟨g, hg, rfl, bytes, hfile⟩
    obtain ⟨parts, hm, rfl⟩ := matches_of_mem_select h hup (fun _ => hd) hg hfile
    exact ⟨hm, bytes, hfile⟩
  · rintro ⟨hm, bytes, hfile⟩
    exact ⟨Found.below ⟨[], directory⟩ parts, mem_select_of_matches h hm hfile, rfl, bytes, hfile⟩

end ConventionLint.Glob
