import ConventionLint.Proofs.Chains
import ConventionLint.Proofs.Result

/-! The construction that a default export starts from: it is found exactly for chains of method calls
on a construction, and the search for it ends on every tree. -/
namespace ConventionLint

open Source

namespace Source.Node

variable {v r c t n : Node}

/-- A construction, with method calls, parentheses, casts and non-null marks around it. -/
inductive IsChain : Node → Prop where
  | construction {v : Node} : v.kind? = some .newExpression → IsChain v
  | call {v c t : Node} : v.kind? = some .callExpression → v.child? .callee = some c →
      c.kind? = some .memberExpression → c.child? .target = some t → IsChain t → IsChain v
  | wrap {v c : Node} : v.kind? = some .wrapper → v.first? = some c → IsChain c → IsChain v

/-- The construction that a chain starts from. -/
structure IsRootOf (r v : Node) : Prop where
  kind : r.kind? = some .newExpression
  begins : r.Begins v

theorem receiver?_eq_some_iff : v.receiver? = some t ↔ v.kind? = some .callExpression ∧
    ∃ c, v.child? .callee = some c ∧ c.kind? = some .memberExpression ∧ c.child? .target = some t := by
  constructor
  · intro h
    have hk := kind?_of_receiver? h
    rw [receiver?, if_pos hk] at h
    obtain ⟨c, hc, ht⟩ := Option.bind_eq_some_iff.mp h
    obtain ⟨hc, hm⟩ := Option.filter_eq_some_iff.mp hc
    exact ⟨hk, c, hc, of_decide_eq_true hm, ht⟩
  · rintro ⟨hk, c, hc, hm, ht⟩
    rw [receiver?, if_pos hk, hc, Option.filter_some, if_pos (decide_eq_true hm), Option.bind_some, ht]

theorem Begins.isChain (hr : r.kind? = some .newExpression) (h : r.Begins v) : v.IsChain := by
  induction h with
  | here => exact .construction hr
  | call ht _ ih =>
    obtain ⟨hk, c, hc, hm, ht⟩ := receiver?_eq_some_iff.mp ht
    exact .call hk hc hm ht ih
  | wrap hk hc _ ih => exact .wrap hk hc ih

theorem IsChain.exists_root (h : v.IsChain) : ∃ r : Node, r.IsRootOf v := by
  induction h with
  | construction hk => exact ⟨_, hk, .here⟩
  | call hk hc hm ht _ ih =>
    obtain ⟨r, hr, hbegins⟩ := ih
    exact ⟨r, hr, .call (receiver?_eq_some_iff.mpr ⟨hk, _, hc, hm, ht⟩) hbegins⟩
  | wrap hk hc _ ih =>
    obtain ⟨r, hr, hbegins⟩ := ih
    exact ⟨r, hr, .wrap hk hc hbegins⟩

theorem IsRootOf.unique {r' : Node} (h : r.IsRootOf v) (h' : r'.IsRootOf v) : r' = r :=
  (h'.begins.chainRoot_eq h'.kind).symm.trans (h.begins.chainRoot_eq h.kind)

/-! The search for the root as two loops, one inside the other. -/

/-- A loop that goes on as long as there is a next node, and comes to its end. -/
inductive Ends (next? : Node → Option Node) : Node → Node → Prop where
  | stop {n : Node} : next? n = none → Ends next? n n
  | go {n c e : Node} : next? n = some c → Ends next? c e → Ends next? n e

/-- One step of unwrapping. -/
def inner? (n : Node) : Option Node := if n.kind? = some .wrapper then n.first? else none

/-- One step from a method call to what the call is applied to. -/
def previous? (n : Node) : Option Node := n.receiver?.map unwrap

theorem unwrap_of_inner? (h : n.inner? = some c) : n.unwrap = c.unwrap ∧ c ∈ n.children := by
  unfold inner? at h
  split at h
  · rename_i hk
    exact ⟨unwrap_of_first? hk h, mem_of_first? h⟩
  · cases h

theorem unwrap_of_inner?_none (h : n.inner? = none) : n.unwrap = n := by
  unfold inner? at h
  split at h
  · rename_i hk
    rw [unwrap_of_wrapper hk, h]
    rfl
  · rename_i hk
    exact unwrap_of_ne hk

theorem ends_unwrap (n : Node) : Ends inner? n n.unwrap := by
  induction n using induction_children with
  | h n ih =>
    cases hc : n.inner? with
    | none =>
      rw [unwrap_of_inner?_none hc]
      exact .stop hc
    | some c =>
      obtain ⟨hu, hm⟩ := unwrap_of_inner? hc
      rw [hu]
      exact .go hc (ih c hm)

theorem ends_chainRoot (v : Node) : Ends previous? v.unwrap v.chainRoot := by
  -- a call has more nodes than what it is applied to, so that the size decreases
  induction hs : v.size using Nat.strongRecOn generalizing v with
  | ind k ih =>
    subst hs
    rw [chainRoot_eq]
    cases ht : v.unwrap.receiver? with
    | none => exact .stop (by rw [previous?, ht]; rfl)
    | some t =>
      have hlt : t.size < v.size := Nat.lt_of_lt_of_le (size_receiver?_lt ht) (size_unwrap_le v)
      exact .go (by rw [previous?, ht]; rfl) (ih t.size hlt t rfl)

end Source.Node

namespace Module

variable {m : Module} {e v r : Node}

theorem constructionOf_mem_constructions (he : m.defaultStatement = some e)
    (hv : e.child? .value = some v) (hr : r.IsRootOf v) : m.constructionOf r ∈ m.constructions := by
  have hmem := mem_preorder_of_begins he hv hr.kind hr.begins
  rw [constructions, Node.walk_eq]
  exact List.mem_map_of_mem (List.mem_filter.mpr ⟨hmem, decide_eq_true hr.kind⟩)

theorem defaultConstruction_of_root (he : m.defaultStatement = some e)
    (hv : e.child? .value = some v) (hr : r.IsRootOf v) :
    m.defaultConstruction = some (m.constructionOf r) :=
  defaultConstruction_eq_some_iff.mpr ⟨e, v, r, he, hv, ⟨hr.kind, hr.begins⟩, rfl⟩

/-- A default export has a construction exactly if its value is a chain. It is that of the chain's
only root, and one of the module's constructions. Both loops of the search end on every tree. -/
theorem defaultConstruction_isChain (he : m.defaultStatement = some e)
    (hv : e.child? .value = some v) :
    (m.defaultConstruction.isSome = true ↔ v.IsChain) ∧
      (v.IsChain → ∃ r : Node, r.IsRootOf v ∧ (∀ r' : Node, r'.IsRootOf v → r' = r) ∧
        m.defaultConstruction = some (m.constructionOf r) ∧
        m.constructionOf r ∈ m.constructions) ∧
      (∀ n : Node, Node.Ends Node.inner? n n.unwrap) ∧
      ∀ n : Node, Node.Ends Node.previous? n.unwrap n.chainRoot := by
  refine ⟨⟨fun h => ?_, fun h => ?_⟩, fun h => ?_, Node.ends_unwrap, Node.ends_chainRoot⟩
  · obtain ⟨c, hc⟩ := Option.isSome_iff_exists.mp h
    obtain ⟨e', v', r, he', hv', ⟨hr, hbegins⟩, -⟩ := defaultConstruction_eq_some_iff.mp hc
    cases he.symm.trans he'
    cases hv.symm.trans hv'
    exact hbegins.isChain hr
  · obtain ⟨r, hr⟩ := h.exists_root
    rw [defaultConstruction_of_root he hv hr]
    rfl
  · obtain ⟨r, hr⟩ := h.exists_root
    exact ⟨r, hr, fun r' hr' => hr.unique hr', defaultConstruction_of_root he hv hr,
      constructionOf_mem_constructions he hv hr⟩

/-- A chain with a cast and a non-null mark between its calls. -/
def chainText : String :=
  "export default (new Router<T>(\x7b prefix: '/a' \x7d).get('/', run) as Api)!.use(log);\n"

def chainConstruction : Construction where
  constructor := "Router"
  text := "new Router<T>(\x7b prefix: '/a' \x7d)"
  options := some [("prefix", some "/a")]

theorem defaultConstruction_chainText : ∃ m e v, Module.parse chainText "a.ts" = .ok m ∧
    m.defaultStatement = some e ∧ e.child? .value = some v ∧ v.IsChain ∧
      chainConstruction ∈ m.constructions := by
  have h : (Module.parse chainText "a.ts").toOption.any fun m =>
      m.defaultConstruction = some chainConstruction := by
    decide +kernel
  obtain ⟨m, hm, h⟩ := exists_ok_of_any h
  have hc : m.defaultConstruction = some chainConstruction := of_decide_eq_true h
  obtain ⟨e, v, -, he, hv, -⟩ := defaultConstruction_eq_some_iff.mp hc
  obtain ⟨hiff, hroot, -⟩ := defaultConstruction_isChain he hv
  have hchain : v.IsChain := hiff.mp (by rw [hc]; rfl)
  obtain ⟨r, -, -, hr, hmem⟩ := hroot hchain
  have hrc : chainConstruction = m.constructionOf r := Option.some.inj (hc.symm.trans hr)
  exact ⟨m, e, v, hm, he, hv, hchain, hrc ▸ hmem⟩

end Module

end ConventionLint
