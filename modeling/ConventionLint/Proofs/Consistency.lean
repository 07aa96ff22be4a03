import ConventionLint.Conventions.Load

/-! Conventions that were read know every name that rules look up in them. -/
namespace ConventionLint.Conventions

open Data

/-- Each naming class has a result that is marked, and so do controllers. -/
structure Consistent (c : Conventions) : Prop where
  result_known : ∀ k ∈ c.namingClasses, (c.resultMarkers.lookup k.result).isSome
  tuple_known : (c.resultMarkers.lookup "tuple").isSome

theorem consistent_standard : Consistent {} where
  result_known := by decide
  tuple_known := by decide

theorem lookup_put (name text key : String) (m : List (String × String)) :
    (put name text m).lookup key = if key = name then some text else m.lookup key := by
  induction m with
  | nil => grind [put]
  | cons e r ih =>
    by_cases he : e.1 = name
    · grind [put]
    · have hp : put name text (e :: r) = e :: put name text r := by simp [put, he]
      grind

theorem isSome_lookup_put {name text key : String} {m : List (String × String)}
    (h : (m.lookup key).isSome) : ((put name text m).lookup key).isSome := by
  rw [lookup_put]
  split
  · rfl
  · exact h

theorem bind_eq_ok {ε α β : Type} {x : Except ε α} {f : α → Except ε β} {b : β}
    (h : x >>= f = .ok b) : ∃ a, x = .ok a ∧ f a = .ok b := by
  cases x with
  | error e => cases h
  | ok a => exact ⟨a, rfl, h⟩

/-- Texts are put over those that are there, so that no name gets lost. -/
theorem isSome_lookup_readTexts {key name : String} {m : List (String × String)} {v : Value} :
    ∀ {base : List (String × String)}, readTexts key base v = .ok m →
      (base.lookup name).isSome → (m.lookup name).isSome := by
  cases v with
  | map entries =>
    induction entries with
    | nil =>
      rintro base ⟨⟩ hb
      exact hb
    | cons e r ih =>
      intro base h hb
      simp only [readTexts, List.foldlM_cons] at h
      obtain ⟨next, hn, hr⟩ := bind_eq_ok h
      split at hn
      · cases hn
      · cases hn
        exact ih hr (isSome_lookup_put hb)
  | null | bool _ | number _ | text _ | list _ | other _ _ => rintro _ ⟨⟩

theorem readClass_result {markers : List (String × String)} {earlier : List String} {index : Nat}
    {v : Value} {k : NamingClass} (h : readClass markers earlier index v = .ok k) :
    (markers.lookup k.result).isSome := by
  cases v with
  | map entries =>
    simp only [readClass] at h
    split at h
    · cases h
    · split at h
      · cases h
      · split at h
        · cases h
        · rename_i hm
          obtain ⟨roles, _, hk⟩ := bind_eq_ok h
          cases hk
          simpa using hm
  | null | bool _ | number _ | text _ | list _ | other _ _ => cases h

theorem readClassesFrom_result {markers : List (String × String)} {vs : List Value} :
    ∀ {earlier : List String} {index : Nat} {ks : List NamingClass},
      readClassesFrom markers earlier index vs = .ok ks →
      ∀ k ∈ ks, (markers.lookup k.result).isSome := by
  induction vs with
  | nil =>
    rintro _ _ _ ⟨⟩ k hk
    cases hk
  | cons v r ih =>
    intro earlier index ks h k hk
    obtain ⟨first, hf, h⟩ := bind_eq_ok h
    obtain ⟨others, ho, h⟩ := bind_eq_ok h
    cases h
    rcases List.mem_cons.mp hk with rfl | hk
    · exact readClass_result hf
    · exact ih ho k hk

theorem readClasses_result {markers : List (String × String)} {v : Value} {ks : List NamingClass}
    (h : readClasses markers v = .ok ks) : ∀ k ∈ ks, (markers.lookup k.result).isSome := by
  unfold readClasses at h
  split at h
  · exact readClassesFrom_result h
  · cases h

/-- An entry that is not there has its standard, one that is there is read. -/
theorem readEntry_cases {α : Type} {entries : List (Value × Value)} {key : String} {standard a : α}
    {read : Value → Except ConfigError α} (h : readEntry entries key standard read = .ok a) :
    a = standard ∨ ∃ v, read v = .ok a := by
  unfold readEntry at h
  split at h
  · exact Or.inl (Except.ok.inj h).symm
  · exact Or.inr ⟨_, h⟩

theorem isSome_lookup_markers {entries : List (Value × Value)} {markers : List (String × String)}
    {name : String}
    (h : readEntry entries "result_markers" standardMarkers
      (readTexts "result_markers" standardMarkers) = .ok markers)
    (hn : (standardMarkers.lookup name).isSome) : (markers.lookup name).isSome := by
  obtain rfl | ⟨v, hv⟩ := readEntry_cases h
  · exact hn
  · exact isSome_lookup_readTexts hv hn

theorem ofValue_consistent {v : Value} {c : Conventions} (h : ofValue v = .ok c) :
    c.Consistent := by
  unfold ofValue at h
  split at h
  · cases h
    exact consistent_standard
  · obtain ⟨_, _, h⟩ := bind_eq_ok h
    obtain ⟨setting, _, h⟩ := bind_eq_ok h
    obtain ⟨markers, hm, h⟩ := bind_eq_ok h
    obtain ⟨classes, hk, h⟩ := bind_eq_ok h
    obtain ⟨_, _, h⟩ := bind_eq_ok h
    obtain ⟨_, _, h⟩ := bind_eq_ok h
    obtain ⟨_, _, h⟩ := bind_eq_ok h
    cases h
    refine ⟨?_, isSome_lookup_markers hm (by decide)⟩
    obtain rfl | ⟨v, hv⟩ := readEntry_cases hk
    · intro k hk
      have hs : ∀ k ∈ standardClasses, (standardMarkers.lookup k.result).isSome := by decide
      exact isSome_lookup_markers hm (hs k hk)
    · exact readClasses_result hv
  · cases h

theorem load_consistent {d : Volume} {p : Path} {c : Conventions} (h : load d p = .ok c) :
    c.Consistent := by
  unfold load ofText at h
  split at h
  · cases h
  · split at h
    · cases h
    · split at h
      · cases h
      · rename_i hv
        cases h
        exact ofValue_consistent hv

theorem ofProject_consistent {d : Volume} {root : Path} {file : Option Path} {c : Conventions}
    (h : ofProject d root file = .ok c) : c.Consistent := by
  unfold ofProject at h
  split at h
  · exact load_consistent h
  · split at h
    · cases h
    · exact load_consistent h
    · cases h
      exact consistent_standard

end ConventionLint.Conventions
