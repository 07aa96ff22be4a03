import ConventionLint.Proofs.Contract
import ConventionLint.Session

/-! Rules that are added while a session goes on. Whatever else its steps do, a name stands for the first
rule that was offered under it, and the views of the registry agree on that. -/
namespace ConventionLint

variable {g : Registry} {s : Session} {r : Rule} {x : Step} {offers : List Rule}

theorem Targets.ofName?_eq_none_iff {targets : String} :
    ofName? targets = none ↔ targets ∉ ["source", "test", "all"] := by
  have hnames : ["source", "test", "all"] = [source, test, all].map name := rfl
  rw [ofName?, List.find?_eq_none, hnames, List.mem_map, not_exists]
  refine forall_congr' fun t => ?_
  rw [decide_eq_true_iff, not_and]

/-- The rule that a step offers; the word for its files must be a known one. -/
def Step.offer? : Step → Option Rule
  | .register r targets => (Targets.ofName? targets).map fun t => { r with targets := t }
  | _ => none

/-- The rule that a step added, as its answer tells. -/
def Step.added? (x : Step) : Except StepError Answer → Option Rule
  | .ok _ => x.offer?
  | .error _ => none

namespace Registry

def names (g : Registry) : List String := g.entries.map (·.name)

theorem find?_isSome_iff {name : String} :
    (g.entries.find? fun r => r.name = name).isSome ↔ name ∈ g.names := by
  simp [names]

theorem mem_map_rules {name : String} : name ∈ g.rules.map (·.name) ↔ name ∈ g.names :=
  ((List.mergeSort_perm _ _).map _).mem_iff

/-- Every name is one of a single rule, the first that was offered under it. -/
structure Keeps (g : Registry) (offers : List Rule) : Prop where
  named : g.Named
  first : ∀ name, g.entries.find? (fun r => r.name = name) = offers.find? fun r => r.name = name

theorem keeps_builtin : builtin.Keeps builtin.entries := ⟨named_builtin, fun _ => rfl⟩

theorem Keeps.add (h : g.Keeps offers) (hr : r.name ∉ g.names) :
    Keeps ⟨g.entries ++ [r]⟩ (offers ++ [r]) where
  named := by
    unfold Named
    rw [List.map_append, List.nodup_append]
    refine ⟨h.named, by simp, ?_⟩
    intro a ha b hb hab
    rw [List.map_singleton, List.mem_singleton] at hb
    subst hab hb
    exact hr ha
  first name := by
    rw [List.find?_append, List.find?_append, h.first]

theorem Keeps.refuse (h : g.Keeps offers) (hr : r.name ∈ g.names) : g.Keeps (offers ++ [r]) where
  named := h.named
  first name := by
    rw [List.find?_append, ← h.first]
    by_cases hn : r.name = name
    · subst hn
      rw [Option.or_of_isSome (find?_isSome_iff.mpr hr)]
    · simp [hn]

theorem Keeps.mem_rules_iff (h : g.Keeps offers) :
    r ∈ g.rules ↔ offers.find? (fun o => o.name = r.name) = some r := by
  rw [mem_rules, ← h.first]
  constructor
  · intro hr
    have hget := get_name h.named hr
    unfold get at hget
    split at hget
    · rename_i r' hr'
      rw [hr', Except.ok.inj hget]
    · cases hget
  · exact List.mem_of_find?_eq_some

theorem Keeps.get_eq (h : g.Keeps offers) (name : String) :
    g.get name = match offers.find? fun r => r.name = name with
      | some r => .ok r
      | none => .error (.unknown name) := by
  have hget : ∀ found, g.entries.find? (fun r => r.name = name) = found →
      g.get name = match found with
        | some r => .ok r
        | none => .error (.unknown name) := by
    rintro found rfl
    rfl
  exact hget _ (h.first name)

theorem Named.pairwise_rules (h : g.Named) : g.rules.Pairwise fun a b => a.name < b.name :=
  Text.pairwise_lt_mergeSort_key h

end Registry

namespace Session

theorem step_register (s : Session) (rule : Rule) (targets : String) :
    s.step (.register rule targets) =
      match (Step.register rule targets).offer? with
      | none => (.error (.registry (.targets rule.name targets)), s)
      | some r =>
        if r.name ∈ s.registry.names then (.error (.registry (.twice rule.name)), s)
        else (.ok .done, { s with registry := ⟨s.registry.entries ++ [r]⟩ }) := by
  rw [step, Registry.register, Step.offer?]
  cases Targets.ofName? targets with
  | none => rfl
  | some t =>
    have hany : (s.registry.entries.any fun r => r.name = rule.name) = true ↔
        rule.name ∈ s.registry.names := by simp [Registry.names]
    dsimp only [Option.map_some]
    by_cases hn : rule.name ∈ s.registry.names
    · rw [if_pos (hany.mpr hn), if_pos hn]
    · rw [if_neg (mt hany.mp hn), if_neg hn]

theorem step_register_cases (s : Session) (rule : Rule) (targets : String) :
    (targets ∉ ["source", "test", "all"] →
      s.step (.register rule targets) = (.error (.registry (.targets rule.name targets)), s)) ∧
    (targets ∈ ["source", "test", "all"] → rule.name ∈ s.registry.names →
      s.step (.register rule targets) = (.error (.registry (.twice rule.name)), s)) ∧
    (targets ∈ ["source", "test", "all"] → rule.name ∉ s.registry.names →
      (s.step (.register rule targets)).1 = .ok .done) := by
  rw [step_register, Step.offer?]
  cases h : Targets.ofName? targets with
  | none =>
    have hunknown := Targets.ofName?_eq_none_iff.mp h
    exact ⟨fun _ => rfl, fun hknown => (hunknown hknown).elim, fun hknown => (hunknown hknown).elim⟩
  | some t =>
    have hknown : targets ∈ ["source", "test", "all"] := by
      by_contra hunknown
      rw [Targets.ofName?_eq_none_iff.mpr hunknown] at h
      cases h
    refine ⟨fun hunknown => (hunknown hknown).elim, fun _ hr => ?_, fun _ hr => ?_⟩
    · exact if_pos hr
    · exact congrArg Prod.fst (if_neg hr)

/-- A step that offers no rule leaves the registry as it is. -/
theorem registry_step_of_no_offer (h : x.offer? = none) : (s.step x).2.registry = s.registry := by
  cases x with
  | register rule targets => rw [step_register, h]
  | write | remove | renew | catalog | dispatch | ruleNames | lint => rfl
  | configure | evaluate | check | rule =>
    rw [step]
    split <;> rfl

/-- A step that offers a rule adds it if its name is new, and is refused if not. -/
theorem step_of_offer (h : x.offer? = some r) :
    if r.name ∈ s.registry.names then ∃ e, s.step x = (.error e, s)
    else s.step x = (.ok .done, { s with registry := ⟨s.registry.entries ++ [r]⟩ }) := by
  cases x with
  | register rule targets =>
    have hstep := step_register s rule targets
    rw [h] at hstep
    dsimp only at hstep
    split at hstep
    · rename_i hr
      rw [if_pos hr]
      exact ⟨_, hstep⟩
    · rename_i hr
      rw [if_neg hr]
      exact hstep
  | _ => cases h

theorem entries_step (s : Session) (x : Step) :
    (s.step x).2.registry.entries = s.registry.entries ++ (x.added? (s.step x).1).toList := by
  cases h : x.offer? with
  | none =>
    have hadded : x.added? (s.step x).1 = none := by cases (s.step x).1 <;> simp [Step.added?, h]
    rw [registry_step_of_no_offer h, hadded]
    simp
  | some r =>
    have hstep := step_of_offer (s := s) h
    split at hstep
    · obtain ⟨e, he⟩ := hstep
      simp [he, Step.added?]
    · simp [hstep, Step.added?, h]

theorem keeps_step (hk : s.registry.Keeps offers) (x : Step) :
    (s.step x).2.registry.Keeps (offers ++ x.offer?.toList) := by
  cases h : x.offer? with
  | none =>
    rw [registry_step_of_no_offer h]
    simpa using hk
  | some r =>
    have hstep := step_of_offer (s := s) h
    split at hstep
    · rename_i hr
      obtain ⟨e, he⟩ := hstep
      rw [he]
      exact hk.refuse hr
    · rename_i hr
      rw [hstep]
      exact hk.add hr

theorem entries_steps (s : Session) (xs : List Step) :
    (s.steps xs).2.registry.entries =
      s.registry.entries ++ (xs.zip (s.steps xs).1).filterMap fun p => p.1.added? p.2 := by
  induction xs generalizing s with
  | nil => simp [steps]
  | cons x xs ih =>
    change ((s.step x).2.steps xs).2.registry.entries = s.registry.entries ++
      ((x, (s.step x).1) :: xs.zip ((s.step x).2.steps xs).1).filterMap fun p => p.1.added? p.2
    rw [ih, entries_step]
    cases h : x.added? (s.step x).1 <;> simp [h]

theorem keeps_steps (hk : s.registry.Keeps offers) (xs : List Step) :
    (s.steps xs).2.registry.Keeps (offers ++ xs.filterMap Step.offer?) := by
  induction xs generalizing s offers with
  | nil => simpa [steps] using hk
  | cons x xs ih =>
    have h := ih (keeps_step hk x)
    have hoffers : offers ++ x.offer?.toList ++ xs.filterMap Step.offer?
        = offers ++ (x :: xs).filterMap Step.offer? := by
      cases ho : x.offer? <;> simp [ho]
    rw [hoffers] at h
    exact h

/-- However a session goes on, its rules are the built-in ones and those that were added, each name is
the name of one rule, the first that was offered under it, and the rules for a file are some of all
rules in their order. At every moment a rule is refused exactly for a word that names no files or a name
that is known, and then nothing changes. -/
theorem registry_of_steps (d : Volume) (root : Path) (c : Conventions) (xs : List Step) :
    let s := ((start d root c).steps xs).2
    let offers := Registry.builtin.entries ++ xs.filterMap Step.offer?
    s.registry.rules.Pairwise (fun a b => a.name < b.name) ∧
    s.registry.rules.Perm (Registry.builtin.entries ++
      (xs.zip ((start d root c).steps xs).1).filterMap fun p => p.1.added? p.2) ∧
    (∀ r, r ∈ s.registry.rules ↔ offers.find? (fun o => o.name = r.name) = some r) ∧
    (∀ name, s.registry.get name = match offers.find? fun o => o.name = name with
      | some r => .ok r
      | none => .error (.unknown name)) ∧
    (∀ name, (∃ e, s.registry.get name = .error e) ↔ name ∉ s.registry.rules.map (·.name)) ∧
    (∀ p names pathOnly, (s.registry.select p names pathOnly).Sublist s.registry.rules) ∧
    ∀ rule targets,
      (targets ∉ ["source", "test", "all"] →
        s.step (.register rule targets) = (.error (.registry (.targets rule.name targets)), s)) ∧
      (targets ∈ ["source", "test", "all"] → rule.name ∈ s.registry.rules.map (·.name) →
        s.step (.register rule targets) = (.error (.registry (.twice rule.name)), s)) ∧
      (targets ∈ ["source", "test", "all"] → rule.name ∉ s.registry.rules.map (·.name) →
        (s.step (.register rule targets)).1 = .ok .done) := by
  intro s offers
  have hk : s.registry.Keeps offers := keeps_steps Registry.keeps_builtin xs
  refine ⟨hk.named.pairwise_rules, ?_, fun r => hk.mem_rules_iff, hk.get_eq, ?_,
    fun _ _ _ => List.filter_sublist, ?_⟩
  · exact (List.mergeSort_perm _ _).trans (List.Perm.of_eq (entries_steps (start d root c) xs))
  · intro name
    rw [Registry.mem_map_rules, ← Registry.find?_isSome_iff, hk.get_eq, hk.first]
    cases offers.find? fun o => o.name = name <;> simp
  · intro rule targets
    rw [Registry.mem_map_rules]
    exact step_register_cases s rule targets

end Session

end ConventionLint
