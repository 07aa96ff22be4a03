import Mathlib.Data.List.Forall2
import ConventionLint.Module.Export

/-! The same source in two modules. Nodes that differ in where they stand only are read alike. -/
namespace ConventionLint

namespace Source.Node

mutual

/-- Whether two nodes, each of a tree over its own text, are the same but for where they stand. -/
def alike (t t' : List Char) : Node → Node → Bool
  | .comment s, .comment s' => s.cut t = s'.cut t'
  | .mk k r s cs, .mk k' r' s' cs' =>
    k = k' && r = r' && s.cut t = s'.cut t' && alikes t t' cs cs'
  | _, _ => false

def alikes (t t' : List Char) : List Node → List Node → Bool
  | [], [] => true
  | c :: cs, c' :: cs' => alike t t' c c' && alikes t t' cs cs'
  | _, _ => false

end

end Source.Node

open Source Source.Node

/-- The node `n` of `m` and the node `n'` of `m'` are the same source. Which part they play in what
they stand in does not matter. -/
structure Module.SameSource (m : Module) (n : Node) (m' : Module) (n' : Node) : Prop where
  kind : n.kind? = n'.kind?
  text : n.span.cut m.text = n'.span.cut m'.text
  children : alikes m.text m'.text n.children n'.children = true

instance {m m' : Module} {n n' : Node} : Decidable (m.SameSource n m' n') :=
  decidable_of_iff (n.kind? = n'.kind? ∧ n.span.cut m.text = n'.span.cut m'.text ∧
      alikes m.text m'.text n.children n'.children = true)
    ⟨fun h => ⟨h.1, h.2.1, h.2.2⟩, fun h => ⟨h.kind, h.text, h.children⟩⟩

section Lists

variable {α β γ : Type} {R : α → β → Prop} {l : List α} {l' : List β} {p : α → Bool} {q : β → Bool}

theorem forall₂_any (h : List.Forall₂ R l l') (hp : ∀ a b, R a b → p a = q b) :
    l.any p = l'.any q := by
  induction h with
  | nil => rfl
  | @cons a b l l' hab _ ih => rw [List.any_cons, List.any_cons, hp a b hab, ih]

theorem forall₂_find? (h : List.Forall₂ R l l') (hp : ∀ a b, R a b → p a = q b) :
    (l.find? p = none ∧ l'.find? q = none) ∨
      ∃ a b, l.find? p = some a ∧ l'.find? q = some b ∧ R a b := by
  induction h with
  | nil => exact Or.inl ⟨rfl, rfl⟩
  | @cons a b l l' hab _ ih =>
    rw [List.find?_cons, List.find?_cons, hp a b hab]
    split
    · exact Or.inr ⟨a, b, rfl, rfl, hab⟩
    · exact ih

theorem forall₂_filterMap {f : α → Option γ} {g : β → Option γ} (h : List.Forall₂ R l l')
    (hf : ∀ a b, R a b → f a = g b) : l.filterMap f = l'.filterMap g := by
  induction h with
  | nil => rfl
  | @cons a b l l' hab _ ih => rw [List.filterMap_cons, List.filterMap_cons, hf a b hab, ih]

end Lists

namespace Module.SameSource

variable {m m' : Module} {n n' c c' : Node}

theorem of_alike (h : alike m.text m'.text c c' = true) :
    c.role = c'.role ∧ m.SameSource c m' c' := by
  cases c with
  | comment s =>
    cases c' with
    | comment s' => exact ⟨rfl, rfl, of_decide_eq_true h, rfl⟩
    | mk => cases h
  | mk k r s cs =>
    cases c' with
    | comment s' => cases h
    | mk k' r' s' cs' =>
      simp only [alike, Bool.and_eq_true, decide_eq_true_eq] at h
      obtain ⟨⟨⟨rfl, rfl⟩, hs⟩, hc⟩ := h
      exact ⟨rfl, rfl, hs, hc⟩

theorem forall₂_of_alikes {l l' : List Node} (h : alikes m.text m'.text l l' = true) :
    List.Forall₂ (fun c c' => c.role = c'.role ∧ m.SameSource c m' c') l l' := by
  induction l generalizing l' with
  | nil =>
    cases l' with
    | nil => exact .nil
    | cons => cases h
  | cons c l ih =>
    cases l' with
    | nil => cases h
    | cons c' l' =>
      rw [alikes, Bool.and_eq_true] at h
      exact .cons (of_alike h.1) (ih h.2)

variable (h : m.SameSource n m' n')
include h

theorem textOf : m.textOf n = m'.textOf n' := congrArg String.ofList h.text

theorem isNamed : n.isNamed = n'.isNamed := by
  unfold Node.isNamed
  rw [h.kind]

theorem child? (r : Role) : (n.child? r = none ∧ n'.child? r = none) ∨
    ∃ c c', n.child? r = some c ∧ n'.child? r = some c' ∧ m.SameSource c m' c' := by
  rcases forall₂_find? (p := fun c => c.role = some r) (q := fun c => c.role = some r)
    (forall₂_of_alikes h.children) fun a b hab => by rw [hab.1] with hnone | ⟨a, b, ha, hb, hab⟩
  · exact Or.inl hnone
  · exact Or.inr ⟨a, b, ha, hb, hab.2⟩

theorem namedChildren :
    List.Forall₂ (fun c c' => m.SameSource c m' c') n.namedChildren n'.namedChildren := by
  have hall := (forall₂_of_alikes h.children).imp fun _ _ hab => hab.2
  refine List.rel_filter (fun a b hab => ?_) hall
  simp only [hab.isNamed]

theorem hasToken (token : String) : n.hasToken token = n'.hasToken token := by
  refine forall₂_any (forall₂_of_alikes h.children) fun a b hab => ?_
  rw [hab.2.kind]

theorem ascribed : m.ascribed n = m'.ascribed n' := by
  have hc := h.namedChildren
  unfold Module.ascribed
  cases hn : n.namedChildren with
  | nil =>
    rw [hn] at hc
    rw [List.forall₂_nil_left_iff.mp hc, h.text]
  | cons c l =>
    rw [hn] at hc
    obtain ⟨c', l', hcc, -, hl⟩ := List.forall₂_cons_left_iff.mp hc
    rw [hl]
    simp only [hcc.textOf]

/-- What is asked of a child is the same for both, or there is none. -/
theorem bind_child? {β : Type} {f g : Node → Option β}
    (hf : ∀ c c', m.SameSource c m' c' → f c = g c') (r : Role) :
    (n.child? r).bind f = (n'.child? r).bind g := by
  rcases h.child? r with ⟨hn, hn'⟩ | ⟨c, c', hc, hc', hcc⟩
  · rw [hn, hn']
    rfl
  · rw [hc, hc']
    exact hf c c' hcc

theorem text_child? (r : Role) : (n.child? r).map m.textOf = (n'.child? r).map m'.textOf := by
  rcases h.child? r with ⟨hn, hn'⟩ | ⟨c, c', hc, hc', hcc⟩
  · rw [hn, hn']
    rfl
  · rw [hc, hc']
    exact congrArg some hcc.textOf

theorem parameterOf : m.parameterOf n = m'.parameterOf n' := by
  unfold Module.parameterOf
  rw [h.kind, h.text_child?, h.bind_child? fun c c' hcc => hcc.ascribed]

theorem parametersOf : m.parametersOf n = m'.parametersOf n' := by
  unfold Module.parametersOf
  rcases h.child? .parameter with ⟨hn, hn'⟩ | ⟨c, c', hc, hc', hcc⟩
  · rw [hn, hn']
    rcases h.child? .parameters with ⟨hn, hn'⟩ | ⟨l, l', hl, hl', hll⟩
    · rw [hn, hn']
    · rw [hl, hl']
      exact forall₂_filterMap hll.namedChildren fun a b hab => hab.parameterOf
  · rw [hc, hc']
    simp only [hcc.textOf]

theorem functionShape (name : Option String) :
    m.functionShape n name = m'.functionShape n' name := by
  unfold Module.functionShape
  rw [h.parametersOf, h.bind_child? fun c c' hcc => hcc.ascribed, h.hasToken]

end Module.SameSource

end ConventionLint
