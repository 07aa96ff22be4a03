import ConventionLint.Path
import ConventionLint.Proofs.Text

/-! Paths made of proper names: they are got back from their text, stay as they are when they are
resolved, and lie below a directory by one path only. -/
namespace ConventionLint.Path

open Text

/-- A name that a file or a directory can have. -/
def IsName (s : String) : Prop :=
  s ≠ "" ∧ s ≠ "." ∧ s ≠ ".." ∧ '/' ∉ s.toList ∧ '\x00' ∉ s.toList

instance (s : String) : Decidable (IsName s) :=
  inferInstanceAs (Decidable (_ ∧ _ ∧ _ ∧ _ ∧ _))

variable {parts front r here place : List String} {root p workingDirectory : Path} {s t : String}
  {links : Links}

theorem names_toList (h : ∀ s ∈ parts, IsName s) : ∀ p ∈ parts.map String.toList, '/' ∉ p := by
  intro p hp
  obtain ⟨s, hs, rfl⟩ := List.mem_map.mp hp
  exact (h s hs).2.2.2.1

theorem splitAt_slash_names (hn : parts ≠ []) (h : ∀ s ∈ parts, IsName s) :
    splitAt '/' ("/".intercalate parts).toList = parts.map String.toList := by
  rw [String.toList_intercalate]
  exact splitAt_intercalate (by simpa using hn) (names_toList h)

/-- No name gets lost when empty parts and single dots are left out. -/
theorem filter_names (h : ∀ s ∈ parts, IsName s) :
    (parts.map String.toList).filter (fun p => p ≠ [] ∧ p ≠ ['.']) = parts.map String.toList := by
  rw [List.filter_eq_self]
  intro p hp
  obtain ⟨s, hs, rfl⟩ := List.mem_map.mp hp
  obtain ⟨he, hd, -⟩ := h s hs
  have hd' : s.toList ≠ ['.'] := fun hl => hd (String.toList_inj.mp hl)
  simp [he, hd']

theorem anchorOf_absolute (h : ∀ s ∈ parts, IsName s) :
    anchorOf ('/' :: ("/".intercalate parts).toList) = .root := by
  cases parts with
  | nil => rfl
  | cons s ss =>
    obtain ⟨he, -, -, hs, -⟩ := h s (List.mem_cons_self ..)
    rw [String.toList_intercalate]
    cases hl : s.toList with
    | nil => exact (he (String.toList_inj.mp hl)).elim
    | cons a as =>
      have ha : a ≠ '/' := by
        rintro rfl
        exact hs (by simp [hl])
      cases ss <;> simp [anchorOf, hl, ha]

/-- The text of an absolute path is read as that path. -/
theorem parse_toString (h : ∀ s ∈ parts, IsName s) :
    parse (toString ⟨.root, parts⟩) = ⟨.root, parts⟩ := by
  have ht : (toString ⟨.root, parts⟩).toList = '/' :: ("/".intercalate parts).toList := by
    simp [toString, Anchor.text]
  unfold parse
  rw [ht, anchorOf_absolute h]
  congr 1
  cases parts with
  | nil => simp [splitAt]
  | cons s ss =>
    have hs : splitAt '/' ('/' :: ("/".intercalate (s :: ss)).toList)
        = [] :: splitAt '/' ("/".intercalate (s :: ss)).toList := by
      simp [splitAt]
    rw [hs, splitAt_slash_names (by simp) h, List.filter_cons_of_neg (by simp), filter_names h]
    simp

/-- No link lies on the way to a place, nor at its end. -/
def Direct (links : Links) (place : List String) : Prop := ∀ l ∈ links, ¬ l.1 <+: place

instance (links : Links) (place : List String) : Decidable (Direct links place) :=
  inferInstanceAs (Decidable (∀ l ∈ links, ¬ l.1 <+: place))

theorem direct_nil : Direct [] place := nofun

theorem Direct.of_front (h : Direct links place) (hp : here <+: place) : Direct links here :=
  fun l hl hh => h l hl (hh.trans hp)

theorem land_of_direct (h : Direct links place) : land links place = place := by
  have hn : links.lookup place = none := by
    rw [List.lookup_eq_none_iff]
    rintro l hl
    rw [bne_iff_ne]
    rintro rfl
    exact h l hl (List.prefix_refl _)
  rw [land, hn, Option.getD_none]

/-- Without links on the way, components that lead down are passed one by one. -/
theorem foldl_step (hup : ∀ s ∈ parts, s ≠ "..") (h : Direct links (here ++ parts)) :
    parts.foldl (step links) here = here ++ parts := by
  induction parts generalizing here with
  | nil => simp
  | cons s ss ih =>
    have happend : here ++ s :: ss = here ++ [s] ++ ss := by simp
    rw [happend] at h ⊢
    rw [List.foldl_cons, step, if_neg (hup s (List.mem_cons_self ..)),
      land_of_direct (h.of_front (List.prefix_append ..)),
      ih (fun t ht => hup t (List.mem_cons_of_mem _ ht)) h]

theorem normalize_of_direct (hup : ∀ s ∈ parts, s ≠ "..") (h : Direct links parts) :
    normalize parts links = parts :=
  foldl_step hup h

theorem normalize_names (h : ∀ s ∈ parts, IsName s) : normalize parts = parts :=
  normalize_of_direct (fun s hs => (h s hs).2.2.1) direct_nil

theorem below?_eq_some_iff : below? front parts = some r ↔ parts = front ++ r := by
  constructor
  · intro h
    fun_induction below? front parts with
    | case1 ps =>
      cases h
      rfl
    | case2 => cases h
    | case3 f fs ps ih => rw [ih h, List.cons_append]
    | case4 => cases h
  · rintro rfl
    induction front with
    | nil => rfl
    | cons f fs ih => simp [below?, ih]

theorem isValid_names {anchor : Anchor} (h : ∀ s ∈ parts, IsName s) :
    isValid ⟨anchor, parts⟩ = true := by
  simp only [isValid, List.all_eq_true]
  intro s hs
  simp [(h s hs).2.2.2.2]

@[simp] theorem join_root (p : Path) (parts : List String) :
    p.join ⟨.root, parts⟩ = ⟨.root, parts⟩ := by
  simp [join, isAbsolute]

theorem splitAt_render (h : ∀ s ∈ r, IsName s) : splitAt '/' (render r).toList =
    if r = [] then [['.']] else r.map String.toList := by
  unfold render
  split
  · rfl
  · rename_i hr
    exact splitAt_slash_names hr h

/-- The directory itself is shown as no file in it is. -/
theorem map_toList_ne (h : ∀ s ∈ r, IsName s) : r.map String.toList ≠ [['.']] := by
  intro hm
  obtain ⟨s, rfl, hs⟩ := List.map_eq_singleton_iff.mp hm
  exact (h s (List.mem_cons_self ..)).2.1 (String.toList_inj.mp hs)

theorem render_injective {q : List String} (hr : ∀ s ∈ r, IsName s) (hq : ∀ s ∈ q, IsName s)
    (h : render r = render q) : r = q := by
  have hl := splitAt_render hr
  rw [h, splitAt_render hq] at hl
  split at hl <;> split at hl
  · simp_all
  · exact (map_toList_ne hr hl.symm).elim
  · exact (map_toList_ne hq hl).elim
  · exact ((List.map_inj_right fun _ _ => String.toList_inj.mp).mp hl).symm

theorem render_ne_empty (hr : ∀ s ∈ r, IsName s) : render r ≠ "" := by
  cases r with
  | nil => simp [render]
  | cons s ss =>
    intro h
    obtain ⟨he, -⟩ := hr s (List.mem_cons_self ..)
    cases ss with
    | nil => exact he (by simpa [render] using h)
    | cons t ts =>
      have hl := congrArg String.toList h
      simp [render, String.toList_intercalate] at hl

theorem isAbsolute_parse :
    (parse s).isAbsolute = true ↔ s.toList.head? = some '/' := by
  cases hs : s.toList with
  | nil => simp [parse, isAbsolute, anchorOf, hs]
  | cons a cs =>
    by_cases ha : a = '/'
    · simp only [parse, isAbsolute, anchorOf, hs, ha, List.head?_cons, iff_true]
      rcases hn : (List.takeWhile (· = '/') cs).length with _ | _ | n <;> simp [hn]
    · simp [parse, isAbsolute, anchorOf, hs, ha]

theorem head?_render_ne (h : ∀ s ∈ r, IsName s) : (render r).toList.head? ≠ some '/' := by
  cases r with
  | nil => simp [render]
  | cons s ss =>
    obtain ⟨he, -, -, hs, -⟩ := h s (List.mem_cons_self ..)
    cases hl : s.toList with
    | nil => exact (he (String.toList_inj.mp hl)).elim
    | cons a as =>
      have ha : a ≠ '/' := by
        rintro rfl
        exact hs (by simp [hl])
      cases ss <;> simp [render, String.toList_intercalate, hl, ha]

/-- What is shown of a file is read as its path from the directory. -/
theorem parse_render (h : ∀ s ∈ r, IsName s) : parse (render r) = ⟨.relative, r⟩ := by
  have ha : (parse (render r)).anchor = .relative :=
    Classical.byContradiction fun hn => head?_render_ne h (isAbsolute_parse.mp (decide_eq_true hn))
  have hp : (parse (render r)).parts = r := by
    unfold parse
    dsimp only
    rw [splitAt_render h]
    split
    · rename_i hr
      rw [hr]
      rfl
    · rw [filter_names h]
      simp
  cases hparse : parse (render r) with
  | mk anchor parts =>
    rw [hparse] at ha hp
    rw [← ha, ← hp]

/-! Resolved paths. -/

/-- The components of a path that is given as a text. -/
theorem mem_parts_parse (h : t ∈ (parse s).parts) : t ≠ "" ∧ t ≠ "." ∧ '/' ∉ t.toList := by
  obtain ⟨cs, hcs, rfl⟩ := List.mem_map.mp h
  obtain ⟨hm, hne⟩ := List.mem_filter.mp hcs
  have hslash := not_mem_of_mem_splitAt hm
  obtain ⟨he, hd⟩ := of_decide_eq_true hne
  refine ⟨fun h => he ?_, fun h => hd ?_, by rwa [String.toList_ofList]⟩
  · rw [← String.toList_ofList (l := cs), h]
    rfl
  · rw [← String.toList_ofList (l := cs), h]
    rfl

theorem isValid_iff : p.isValid = true ↔ ∀ t ∈ p.parts, '\x00' ∉ t.toList := by
  simp [isValid]

/-- A text that can be asked for has no forbidden character. -/
theorem not_mem_of_isValid_parse (h : (parse s).isValid = true) : '\x00' ∉ s.toList := by
  intro hs
  obtain ⟨part, hp, hm⟩ := exists_mem_splitAt hs (by decide : '\x00' ≠ '/')
  have hk : part ≠ [] ∧ part ≠ ['.'] := by
    constructor
    · rintro rfl
      cases hm
    · rintro rfl
      revert hm
      decide
  have ht : String.ofList part ∈ (parse s).parts :=
    List.mem_map.mpr ⟨part, List.mem_filter.mpr ⟨hp, decide_eq_true hk⟩, rfl⟩
  exact isValid_iff.mp h _ ht (by rwa [String.toList_ofList])

theorem mem_foldl_step (h : t ∈ parts.foldl (step []) here) :
    t ∈ here ∨ t ∈ parts ∧ t ≠ ".." := by
  induction parts generalizing here with
  | nil => exact Or.inl h
  | cons s ss ih =>
    rw [List.foldl_cons] at h
    rcases ih h with h | ⟨hm, hne⟩
    · unfold step at h
      split at h
      · exact Or.inl ((List.dropLast_sublist here).subset h)
      · rename_i hs
        rw [land_nil] at h
        rcases List.mem_append.mp h with h | h
        · exact Or.inl h
        · rw [List.mem_singleton.mp h]
          exact Or.inr ⟨List.mem_cons_self .., hs⟩
    · exact Or.inr ⟨List.mem_cons_of_mem _ hm, hne⟩

theorem mem_normalize (h : t ∈ normalize parts) : t ∈ parts ∧ t ≠ ".." := by
  rcases mem_foldl_step h with h | h
  · cases h
  · exact h

theorem mem_parts_join {q : Path} (h : t ∈ (p.join q).parts) : t ∈ p.parts ∨ t ∈ q.parts := by
  unfold join at h
  split at h
  · exact Or.inr h
  · exact List.mem_append.mp h

theorem isValid_of_join {q : Path} (h : (p.join q).isValid = true) : q.isValid = true := by
  rw [isValid_iff] at h ⊢
  intro t ht
  refine h t ?_
  unfold join
  split
  · exact ht
  · exact List.mem_append_right _ ht

/-- A path that goes on below another one. -/
def below (p : Path) (parts : List String) : Path := { p with parts := p.parts ++ parts }

theorem below_append (p : Path) (front parts : List String) :
    p.below (front ++ parts) = (p.below front).below parts := by
  simp [below]

theorem join_relative (p : Path) (parts : List String) : p.join ⟨.relative, parts⟩ = p.below parts :=
  rfl

theorem parts_join_below (workingDirectory p : Path) (parts : List String) :
    (workingDirectory.join (p.below parts)).parts = (workingDirectory.join p).parts ++ parts := by
  have hb : (p.below parts).isAbsolute = p.isAbsolute := rfl
  unfold join
  rw [hb]
  split
  · rfl
  · exact (List.append_assoc ..).symm

/-- Names below a path lead to the same names below its place. -/
theorem resolve_below (h : ∀ s ∈ parts, IsName s) (workingDirectory p : Path) :
    resolve workingDirectory (p.below parts) = resolve workingDirectory p ++ parts := by
  unfold resolve normalize
  rw [parts_join_below, List.foldl_append, foldl_step (fun s hs => (h s hs).2.2.1) direct_nil]

theorem isValid_below (hp : p.isValid = true) (h : ∀ s ∈ parts, IsName s) :
    (p.below parts).isValid = true := by
  rw [isValid_iff] at hp ⊢
  intro t ht
  rcases List.mem_append.mp ht with ht | ht
  · exact hp t ht
  · exact (h t ht).2.2.2.2

/-- Names below a directory are the path of what lies there. -/
theorem relative?_join (hp : root.isValid = true) (h : ∀ s ∈ r, IsName s)
    (hfile : root.join p = root.below r) :
    relative? workingDirectory root p = some (render r) := by
  dsimp only [relative?]
  rw [hfile, isValid_below hp h, hp, resolve_below h, below?_eq_some_iff.mpr rfl]
  rfl

/-- A path from the root on that is made of names. -/
structure IsNamed (p : Path) : Prop where
  anchor : p.anchor = .root
  parts : ∀ t ∈ p.parts, IsName t

theorem isNamed_root (h : ∀ t ∈ parts, IsName t) : IsNamed ⟨.root, parts⟩ := ⟨rfl, h⟩

theorem IsNamed.parse_toString (h : p.IsNamed) : parse p.toString = p := by
  have hp : p = ⟨.root, p.parts⟩ := by rw [← h.anchor]
  rw [hp]
  exact Path.parse_toString h.parts

/-- What is shown of a file is what the place it leads to has more than the directory. -/
theorem IsNamed.of_relative? {directory : Path} {shown : String} (h : p.IsNamed)
    (hr : relative? workingDirectory directory (parse p.toString) links = some shown) :
    ∃ r, resolve workingDirectory p links = resolve workingDirectory directory links ++ r ∧
      shown = render r := by
  have hjoin : directory.join p = p := by
    have hp : p = ⟨.root, p.parts⟩ := by rw [← h.anchor]
    rw [hp, join_root]
  rw [h.parse_toString] at hr
  dsimp only [relative?] at hr
  rw [hjoin] at hr
  split at hr
  · obtain ⟨r, hb, rfl⟩ := Option.map_eq_some_iff.mp hr
    exact ⟨r, below?_eq_some_iff.mp hb, rfl⟩
  · cases hr

/-! Paths are in a linear order. -/

theorem le_total (p q : List String) : (le p q || le q p) = true := by
  induction p generalizing q with
  | nil => simp [le]
  | cons a p ih =>
    cases q with
    | nil => simp [le]
    | cons b q =>
      by_cases h : a = b
      · simp [le, h, ih q]
      · simp only [le, h, Ne.symm h, if_false, Bool.or_eq_true, decide_eq_true_iff]
        by_cases hab : a < b
        · exact Or.inl hab
        · exact Or.inr (Classical.byContradiction fun hba => h (String.le_antisymm hba hab))

theorem le_antisymm {p q : List String} (h : le p q = true) (h' : le q p = true) : p = q := by
  induction p generalizing q with
  | nil =>
    cases q with
    | nil => rfl
    | cons b q => cases h'
  | cons a p ih =>
    cases q with
    | nil => cases h
    | cons b q =>
      by_cases hab : a = b
      · subst hab
        simp only [le, if_true] at h h'
        rw [ih h h']
      · simp only [le, hab, Ne.symm hab, if_false, decide_eq_true_iff] at h h'
        exact (String.lt_asymm h h').elim

theorem le_trans (p q r : List String) (h : le p q = true) (h' : le q r = true) :
    le p r = true := by
  induction p generalizing q r with
  | nil => rfl
  | cons a p ih =>
    cases q with
    | nil => cases h
    | cons b q =>
      cases r with
      | nil => cases h'
      | cons e r =>
        by_cases hab : a = b
        · subst hab
          by_cases hae : a = e
          · simp only [le, hae, if_true] at h h' ⊢
            exact ih q r h h'
          · simp only [le, hae, if_false] at h' ⊢
            exact h'
        · simp only [le, hab, if_false, decide_eq_true_iff] at h
          by_cases hbe : b = e
          · subst hbe
            simp only [le, hab, if_false, decide_eq_true_iff]
            exact h
          · simp only [le, hbe, if_false, decide_eq_true_iff] at h'
            have hae : ¬ a = e := by
              rintro rfl
              exact String.lt_asymm h h'
            simp only [le, hae, if_false, decide_eq_true_iff]
            exact String.lt_trans h h'

/-- Two lists of paths in order are the same if they have the same paths, each once. -/
theorem eq_of_sorted {l l' : List (List String)} (h : l.Pairwise fun p q => le p q = true)
    (h' : l'.Pairwise fun p q => le p q = true) (hn : l.Nodup) (hn' : l'.Nodup)
    (hm : ∀ p, p ∈ l ↔ p ∈ l') : l = l' :=
  List.Perm.eq_of_pairwise (fun _ _ _ _ => le_antisymm) h h'
    ((List.perm_ext_iff_of_nodup hn hn').mpr hm)

end ConventionLint.Path
