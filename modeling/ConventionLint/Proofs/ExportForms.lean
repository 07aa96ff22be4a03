import ConventionLint.Proofs.Nodes
import ConventionLint.Proofs.SameSource
import ConventionLint.Proofs.Twins

/-! Two ways to export a function as the default: as it stands, or by the name it is bound to. -/
namespace ConventionLint

open Source Source.Node

/-- Wrappers around a node, each with the next as its first named node. -/
inductive Source.Node.Wraps : Node → Node → Prop
  | refl (n : Node) : Wraps n n
  | step {w v n : Node} (hk : w.kind? = some .wrapper) (hv : w.first? = some v) (h : Wraps v n) :
    Wraps w n

namespace Source.Node

variable {n w : Node}

theorem Wraps.unwrap_eq (h : Wraps w n) (hn : n.kind? ≠ some .wrapper) : w.unwrap = n := by
  induction h with
  | refl n => exact unwrap_of_ne hn
  | step hk hv _ ih =>
    rw [unwrap_of_wrapper hk, hv]
    exact ih hn

theorem wraps_unwrap (n : Node) : Wraps n n.unwrap := by
  induction n using induction_children with
  | h n ih =>
    by_cases hk : n.kind? = some .wrapper
    · rw [unwrap_of_wrapper hk]
      cases hf : n.first? with
      | none => exact .refl n
      | some c => exact .step hk hf (ih c (mem_of_first? hf))
    · rw [unwrap_of_ne hk]
      exact .refl n

end Source.Node

/-- The one element of a list that passes a test. -/
def only? {α : Type} (p : α → Bool) (l : List α) : Option α :=
  match l.filter p with
  | [a] => some a
  | _ => none

theorem parts_of_only? {α : Type} {p : α → Bool} {l : List α} {a : α} (h : only? p l = some a) :
    p a = true ∧ ∃ l₁ l₂, l = l₁ ++ a :: l₂ ∧ ∀ b ∈ l₁ ++ l₂, p b = false := by
  unfold only? at h
  split at h
  · rename_i a' hf
    cases h
    obtain ⟨l₁, l₂, hl, hbefore, ha, hafter⟩ := List.filter_eq_cons_iff.mp hf
    refine ⟨ha, l₁, l₂, hl, fun b hb => ?_⟩
    rcases List.mem_append.mp hb with hb | hb
    · simpa using hbefore b hb
    · simpa using List.filter_eq_nil_iff.mp hafter b hb
  · cases h

namespace Module

variable {m m' : Module} {X : String} {d e f f' n s v : Node}

/-- A statement that is a default export. -/
def IsDefaultExport (n : Node) : Prop := n.kind? = some .exportStatement ∧ n.hasToken "default" = true

/-- A statement binds a name to a node: to itself, if it is a function or a class, or to one of its
declarators. -/
inductive Binds (m : Module) (X : String) : Node → Node → Prop
  | named {s : Node} (hk : s.kind? = some .functionDeclaration ∨ s.kind? = some .classDefinition)
      (hn : m.nameOf s = some X) : Binds m X s s
  | declarator {s d n : Node} (hs : s.kind? = some .variableStatement) (hd : d ∈ s.namedChildren)
      (hk : d.kind? = some .declarator) (hn : d.child? .name = some n)
      (hi : n.kind? = some .identifier) (hX : m.textOf n = X) : Binds m X s d

/-- A statement at the top of the module binds a name, or exports a statement that does. -/
def Declares (m : Module) (X : String) (s d : Node) : Prop :=
  m.Binds X s d ∨
    s.kind? = some .exportStatement ∧ ∃ t, s.child? .declaration = some t ∧ m.Binds X t d

/-- The statement `e` is the default export, and no other statement is one. -/
def OnlyDefault (m : Module) (e : Node) : Prop :=
  IsDefaultExport e ∧
    ∃ l r, m.root.namedChildren = l ++ e :: r ∧ ∀ n ∈ l ++ r, ¬ IsDefaultExport n

/-- A statement declares the name by `d` alone, and no other statement declares it. -/
def OnlyDeclared (m : Module) (X : String) (d : Node) : Prop :=
  ∃ s l r, m.root.namedChildren = l ++ s :: r ∧ m.Declares X s d ∧
    (∀ d', m.Declares X s d' → d' = d) ∧ ∀ n ∈ l ++ r, ∀ d', ¬ m.Declares X n d'

/-- The default export is `export default v`, with wrappers around `v`. -/
def ExportsValue (m : Module) (v : Node) : Prop :=
  ∃ e w, m.OnlyDefault e ∧ e.child? .declaration = none ∧ e.child? .value = some w ∧ w.Wraps v

/-- The default export is `export default d` for a declaration `d`. -/
def ExportsDeclaration (m : Module) (d : Node) : Prop :=
  ∃ e, m.OnlyDefault e ∧ e.child? .declaration = some d

/-- The default export is the name `X`, with wrappers around it. -/
def ExportsName (m : Module) (X : String) : Prop :=
  ∃ x, m.ExportsValue x ∧ x.kind? = some .identifier ∧ m.textOf x = X

/-- The name `X` is declared as a variable of the value `f`, with wrappers around it. -/
def BindsValue (m : Module) (X : String) (f : Node) : Prop :=
  ∃ d w, m.OnlyDeclared X d ∧ d.kind? = some .declarator ∧ d.child? .value = some w ∧ w.Wraps f

/-! The statement that exports the default, and the node that declares a name. -/

theorem OnlyDefault.defaultStatement (h : m.OnlyDefault e) : m.defaultStatement = some e := by
  obtain ⟨⟨hk, hd⟩, l, r, hl, hother⟩ := h
  have hnone : ∀ n ∈ l, ¬ (n.kind? = some .exportStatement ∧ isDefault n = true) := fun n hn =>
    hother n (List.mem_append_left r hn)
  have hd' : isDefault e = true := hd
  rw [Module.defaultStatement, exports, List.find?_filter, hl, List.find?_append,
    List.find?_eq_none.mpr (by simpa using hnone)]
  simp [hk, hd']

theorem mem_bindings_iff : (X, d) ∈ m.bindings s ↔ m.Binds X s d := by
  constructor
  · intro h
    have hnamed : (X, d) ∈ ((m.nameOf s).map fun name => (name, s)).toList →
        m.nameOf s = some X ∧ s = d := by
      intro hm
      obtain ⟨name, hn, he⟩ := Option.map_eq_some_iff.mp (Option.mem_toList.mp hm)
      cases he
      exact ⟨hn, rfl⟩
    unfold bindings at h
    split at h
    · rename_i hk
      obtain ⟨hn, rfl⟩ := hnamed h
      exact .named (Or.inl hk) hn
    · rename_i hk
      obtain ⟨hn, rfl⟩ := hnamed h
      exact .named (Or.inr hk) hn
    · rename_i hk
      obtain ⟨c, hc, he⟩ := List.mem_filterMap.mp h
      obtain ⟨hd, he⟩ := Option.ite_none_right_eq_some.mp he
      obtain ⟨n, hn, he⟩ := Option.bind_eq_some_iff.mp he
      obtain ⟨hi, he⟩ := Option.ite_none_right_eq_some.mp he
      cases he
      exact .declarator hk hc hd hn hi rfl
    · cases h
  · intro h
    cases h with
    | named hk hn =>
      rcases hk with hk | hk <;> simp [bindings, hk, hn]
    | declarator hs hd hk hn hi hX =>
      simp only [bindings, hs, List.mem_filterMap]
      exact ⟨d, hd, by simp [hk, hn, hi, hX]⟩

theorem mem_topBindings_iff : (X, d) ∈ m.topBindings s ↔ m.Declares X s d := by
  unfold topBindings Declares
  by_cases hk : s.kind? = some .exportStatement
  · have hb : ¬ m.Binds X s d := by
      rintro (⟨hk' | hk', -⟩ | ⟨hk', -⟩) <;> rw [hk] at hk' <;> cases hk'
    rw [if_pos hk]
    cases hc : s.child? .declaration with
    | none => simp [hb]
    | some t => simp [hb, hk, mem_bindings_iff]
  · rw [if_neg hk, mem_bindings_iff]
    simp [hk]

theorem OnlyDeclared.declared? (h : m.OnlyDeclared X d) : m.declared? X = some d := by
  obtain ⟨s, l, r, hl, hs, hself, hother⟩ := h
  have hall : ∀ n ∈ m.root.namedChildren, ∀ d', m.Declares X n d' → d' = d := by
    intro n hn d' hd
    rw [hl, List.mem_append, List.mem_cons] at hn
    rcases hn with hn | rfl | hn
    · exact (hother n (List.mem_append_left r hn) d' hd).elim
    · exact hself d' hd
    · exact (hother n (List.mem_append_right l hn) d' hd).elim
  have hmem : s ∈ m.root.namedChildren := by simp [hl]
  unfold Module.declared?
  cases hf : (m.root.namedChildren.flatMap m.topBindings).find? fun b => b.1 = X with
  | none =>
    have hb := List.mem_flatMap.mpr ⟨s, hmem, mem_topBindings_iff.mpr hs⟩
    exact absurd (List.find?_eq_none.mp hf _ hb) (by simp)
  | some b =>
    obtain ⟨Y, d'⟩ := b
    obtain rfl : Y = X := by simpa using List.find?_some hf
    obtain ⟨n, hn, hb⟩ := List.mem_flatMap.mp (List.mem_of_find?_eq_some hf)
    rw [hall n hn d' (mem_topBindings_iff.mp hb)]
    rfl

/-! What is exported. -/

theorem ExportsValue.defaultExport (h : m.ExportsValue v) (hk : v.kind? ≠ some .wrapper) :
    m.defaultExport = some (m.describe v) := by
  obtain ⟨e, w, he, hd, hv, hw⟩ := h
  have hdescribe : m.describe w = m.describe v := by
    unfold describe
    rw [hw.unwrap_eq hk, unwrap_of_ne hk]
  simp [Module.defaultExport, he.defaultStatement, hd, hv, hdescribe]

theorem describe_function (hk : f.kind? = some .functionValue) :
    m.describe f = .function (m.functionShape f (m.nameOf f)) := by
  have hu : f.unwrap = f := unwrap_of_ne (by rw [hk]; decide)
  simp [describe, hu, hk]

theorem ExportsName.defaultExport (h : m.ExportsName X) : m.defaultExport = some (m.resolve X) := by
  obtain ⟨x, hx, hk, rfl⟩ := h
  have hw : x.kind? ≠ some .wrapper := by rw [hk]; decide
  have hd : m.describe x = m.resolve (m.textOf x) := by simp [describe, unwrap_of_ne hw, hk]
  rw [hx.defaultExport hw, hd]

theorem ExportsName.defaultName (h : m.ExportsName X) : m.defaultName = some X := by
  obtain ⟨x, ⟨e, w, he, hd, hv, hw⟩, hk, rfl⟩ := h
  have hu := hw.unwrap_eq (by rw [hk]; decide)
  simp [Module.defaultName, he.defaultStatement, hv, hu, hk]

theorem ExportsName.not_mem_namedFunctions (h : m.ExportsName X) : X ∉ m.namedFunctions := by
  intro hm
  obtain ⟨b, hb, rfl⟩ := List.mem_map.mp hm
  have hf := (List.mem_filter.mp hb).2
  simp [h.defaultName] at hf

theorem BindsValue.resolve (h : m.BindsValue X f) (hk : f.kind? = some .functionValue) :
    m.resolve X = .function (m.functionShape f X) := by
  obtain ⟨d, w, hd, hdk, hv, hw⟩ := h
  have hu := hw.unwrap_eq (by rw [hk]; decide)
  simp [Module.resolve, hd.declared?, hdk, hv, hu, hk]

theorem OnlyDeclared.resolve (h : m.OnlyDeclared X d) (hk : d.kind? = some .functionDeclaration) :
    m.resolve X = .function (m.functionShape d X) := by
  simp [Module.resolve, h.declared?, hk]

theorem ExportsDeclaration.defaultExport (h : m.ExportsDeclaration d)
    (hk : d.kind? = some .functionDeclaration) :
    m.defaultExport = some (.function (m.functionShape d (m.nameOf d))) := by
  obtain ⟨e, he, hd⟩ := h
  simp [Module.defaultExport, he.defaultStatement, hd, hk]

/-! The forms can be read off a module. -/

instance : DecidablePred IsDefaultExport := fun _ => inferInstanceAs (Decidable (_ ∧ _))

def onlyDefault? (m : Module) : Option Node := only? (fun n => IsDefaultExport n) m.root.namedChildren

def onlyDeclared? (m : Module) (X : String) : Option Node :=
  (only? (fun s => (m.topBindings s).any fun b => b.1 = X) m.root.namedChildren).bind fun s =>
    (only? (fun b => b.1 = X) (m.topBindings s)).map (·.2)

def exportedValue? (m : Module) : Option Node :=
  m.onlyDefault?.bind fun e =>
    if (e.child? .declaration).isNone then (e.child? .value).map unwrap else none

def exportedDeclaration? (m : Module) : Option Node :=
  m.onlyDefault?.bind fun e => e.child? .declaration

def exportsName (m : Module) (X : String) : Bool :=
  m.exportedValue?.any fun x => x.kind? = some .identifier ∧ m.textOf x = X

def boundValue? (m : Module) (X : String) : Option Node :=
  (m.onlyDeclared? X).bind fun d =>
    if d.kind? = some .declarator then (d.child? .value).map unwrap else none

theorem onlyDefault_of_eq (h : m.onlyDefault? = some e) : m.OnlyDefault e := by
  obtain ⟨he, l, r, hl, hother⟩ := parts_of_only? h
  exact ⟨of_decide_eq_true he, l, r, hl, fun n hn => of_decide_eq_false (hother n hn)⟩

theorem onlyDeclared_of_eq (h : m.onlyDeclared? X = some d) : m.OnlyDeclared X d := by
  obtain ⟨s, hs, hb⟩ := Option.bind_eq_some_iff.mp h
  obtain ⟨⟨Y, d'⟩, hd, rfl⟩ := Option.map_eq_some_iff.mp hb
  obtain ⟨-, l, r, hl, hother⟩ := parts_of_only? hs
  obtain ⟨hY, b, b', hbs, hbother⟩ := parts_of_only? hd
  obtain rfl : Y = X := of_decide_eq_true hY
  refine ⟨s, l, r, hl, mem_topBindings_iff.mp (by simp [hbs]), fun d₂ h₂ => ?_, fun n hn d₂ h₂ => ?_⟩
  · have hmem := mem_topBindings_iff.mpr h₂
    rw [hbs, List.mem_append, List.mem_cons] at hmem
    simp only [List.mem_append] at hbother
    rcases hmem with hmem | hmem | hmem
    · exact absurd rfl (of_decide_eq_false (hbother _ (Or.inl hmem)))
    · cases hmem
      rfl
    · exact absurd rfl (of_decide_eq_false (hbother _ (Or.inr hmem)))
  · have hnone := List.any_eq_false.mp (hother n hn) _ (mem_topBindings_iff.mpr h₂)
    exact hnone (decide_eq_true rfl)

theorem exportsDeclaration_of_eq (h : m.exportedDeclaration? = some d) : m.ExportsDeclaration d := by
  obtain ⟨e, he, hd⟩ := Option.bind_eq_some_iff.mp h
  exact ⟨e, onlyDefault_of_eq he, hd⟩

theorem exportsValue_of_eq (h : m.exportedValue? = some v) : m.ExportsValue v := by
  obtain ⟨e, he, hv⟩ := Option.bind_eq_some_iff.mp h
  obtain ⟨hd, hv⟩ := Option.ite_none_right_eq_some.mp hv
  obtain ⟨w, hw, rfl⟩ := Option.map_eq_some_iff.mp hv
  exact ⟨e, w, onlyDefault_of_eq he, Option.isNone_iff_eq_none.mp hd, hw, wraps_unwrap w⟩

theorem bindsValue_of_eq (h : m.boundValue? X = some f) : m.BindsValue X f := by
  obtain ⟨d, hd, hf⟩ := Option.bind_eq_some_iff.mp h
  obtain ⟨hk, hf⟩ := Option.ite_none_right_eq_some.mp hf
  obtain ⟨w, hw, rfl⟩ := Option.map_eq_some_iff.mp hf
  exact ⟨d, w, onlyDeclared_of_eq hd, hk, hw, wraps_unwrap w⟩

theorem exportsName_of_eq (h : m.exportsName X = true) : m.ExportsName X := by
  obtain ⟨x, hx, hX⟩ := (Option.any_eq_true _ _).mp h
  exact ⟨x, exportsValue_of_eq hx, of_decide_eq_true hX⟩

end Module

/-! The checks of a signature. -/

namespace Rule

/-- The rules that look at the default export and its signature. -/
def signatureRules : List Rule :=
  [functionDefaultExport, functionDefaultExportIsFunction, functionParameterCount,
   functionPortalParameter, functionArgsParameter, functionReturnType,
   controllerDefaultExportIsFunction, controllerParameterCount, controllerPortalParameter,
   controllerArgsParameter, controllerReturnType]

theorem signatureRules_subset : signatureRules ⊆ Registry.builtin.entries := by
  simp [signatureRules, Registry.builtin]

variable {p : Place} {c c' : String} {m m' : Module} {g : FunctionShape} {name : Option String}

theorem defaultFunction?_eq {x : Context} (hm : Module.parse x.content x.file = .ok m)
    (hd : m.defaultExport = some (.function g)) : defaultFunction? x = pure (some g) := by
  unfold defaultFunction?
  rw [Context.Parallel.module_bind_ok hm, hd]

theorem exportsFunction_eq {x : Context} (hm : Module.parse x.content x.file = .ok m)
    (hd : m.defaultExport = some (.function g)) (subject : String) :
    exportsFunction x subject = pure .pass := by
  unfold exportsFunction
  rw [Context.Parallel.module_bind_ok hm, hd]

theorem withClass_eq {check check' : NamingClass → Run Outcome} (h : ∀ k, check k = check' k) :
    withClass check ⟨p, c⟩ = withClass check' ⟨p, c'⟩ := by
  rw [funext h]
  rfl

section

variable (hg : defaultFunction? ⟨p, c⟩ = pure (some g))
  (hg' : defaultFunction? ⟨p, c'⟩ = pure (some { g with name }))
include hg hg'

theorem countsParameters_eq (subject : String) (roles : List ParameterRole) :
    countsParameters ⟨p, c⟩ subject roles = countsParameters ⟨p, c'⟩ subject roles := by
  unfold countsParameters
  rw [hg, hg']
  rfl

theorem marksParameter_eq (subject : String) (roles : List ParameterRole) (role : ParameterRole)
    (ignoreCase : Bool) : marksParameter ⟨p, c⟩ subject roles role ignoreCase
      = marksParameter ⟨p, c'⟩ subject roles role ignoreCase := by
  unfold marksParameter
  rw [hg, hg']
  rfl

theorem marksResult_eq (subject marker : String) :
    marksResult ⟨p, c⟩ subject marker = marksResult ⟨p, c'⟩ subject marker := by
  unfold marksResult
  rw [hg, hg']
  rfl

end

/-- The checks of a signature do not see the name of the function. -/
theorem check_eq_of_defaultExport (hm : Module.parse c p.file = .ok m)
    (hm' : Module.parse c' p.file = .ok m') (hd : m.defaultExport = some (.function g))
    (hd' : m'.defaultExport = some (.function { g with name })) {r : Rule}
    (hr : r ∈ signatureRules) : r.check ⟨p, c⟩ = r.check ⟨p, c'⟩ := by
  have hg := defaultFunction?_eq (x := ⟨p, c⟩) hm hd
  have hg' := defaultFunction?_eq (x := ⟨p, c'⟩) hm' hd'
  have hmodule := fun (k : Module → Run Outcome) =>
    Context.Parallel.module_bind_ok (x := ⟨p, c⟩) hm k
  have hmodule' := fun (k : Module → Run Outcome) =>
    Context.Parallel.module_bind_ok (x := ⟨p, c'⟩) hm' k
  have hexports := exportsFunction_eq (x := ⟨p, c⟩) hm hd
  have hexports' := exportsFunction_eq (x := ⟨p, c'⟩) hm' hd'
  have hname : r.name ∈ signatureRules.map (·.name) := List.mem_map_of_mem hr
  have hb := signatureRules_subset hr
  cases r, hb using builtin_cases with
  | functionDefaultExport =>
    simp only [functionDefaultExport, hmodule, hmodule', hd, hd']
    rfl
  | functionDefaultExportIsFunction =>
    simp only [functionDefaultExportIsFunction, hexports, hexports']
  | functionParameterCount =>
    exact withClass_eq fun k => countsParameters_eq hg hg' k.label k.parameters
  | functionPortalParameter =>
    exact withClass_eq fun k => marksParameter_eq hg hg' k.label k.parameters .portal false
  | functionArgsParameter =>
    exact withClass_eq fun k => marksParameter_eq hg hg' k.label k.parameters .args false
  | functionReturnType =>
    exact withClass_eq fun k => congrArg (_ >>= ·) (funext (marksResult_eq hg hg' k.label))
  | controllerDefaultExportIsFunction =>
    simp only [controllerDefaultExportIsFunction, hmodule, hmodule', hd, hd', hexports, hexports']
    rfl
  | controllerParameterCount =>
    exact countsParameters_eq hg hg' controllerSubject p.conventions.controllerParameters
  | controllerPortalParameter =>
    exact marksParameter_eq hg hg' controllerSubject p.conventions.controllerParameters .portal true
  | controllerArgsParameter =>
    exact marksParameter_eq hg hg' controllerSubject p.conventions.controllerParameters .args true
  | controllerReturnType => simp only [controllerReturnType, marksResult_eq hg hg']
  | _ => exact absurd hname (by decide)

end Rule

namespace Module

/-- Files with these modules get the same outcomes from the checks of a signature. -/
def SameChecks (m m' : Module) : Prop :=
  ∀ (p : Place) (c c' : String), Module.parse c p.file = .ok m → Module.parse c' p.file = .ok m' →
    ∀ r ∈ Rule.signatureRules, r.check ⟨p, c⟩ = r.check ⟨p, c'⟩

/-! A function in each form. -/

def arrowText : String := "export default (async (a: A): B => 1) as T;"

def namedArrowText : String := "export default (f)!;\nexport const f = (async (a: A): B => 1);"

def declarationText : String := "export default function f(a: A): B \x7b\x7d"

def namedDeclarationText : String := "function f(a: A): B \x7b\x7d\nexport default f;"

/-- Two texts are modules, and a test holds of them. -/
def bothParse (t t' : String) (test : Module → Module → Bool) : Bool :=
  (Module.parse t "f.ts").toOption.any fun m => (Module.parse t' "f.ts").toOption.any (test m)

theorem exists_of_bothParse {t t' : String} {test : Module → Module → Bool}
    (h : bothParse t t' test = true) : ∃ m m', Module.parse t "f.ts" = .ok m ∧
      Module.parse t' "f.ts" = .ok m' ∧ test m m' = true := by
  obtain ⟨m, hm, h⟩ := exists_ok_of_any h
  obtain ⟨m', hm', h⟩ := exists_ok_of_any h
  exact ⟨m, m', hm, hm', h⟩

theorem arrow_forms : bothParse arrowText namedArrowText (fun m m' =>
    m'.exportsName "f" && m.exportedValue?.any fun f => (m'.boundValue? "f").any fun f' =>
      f.kind? = some .functionValue ∧ m.SameSource f m' f') = true := by
  decide +kernel

theorem declaration_forms : bothParse declarationText namedDeclarationText (fun m m' =>
    m'.exportsName "f" && m.exportedDeclaration?.any fun d => (m'.onlyDeclared? "f").any fun d' =>
      d.kind? = some .functionDeclaration ∧ m.nameOf d = some "f" ∧ m.SameSource d m' d') = true := by
  decide +kernel

/-- It does not matter whether a function is exported as it stands or by a name `X` that it is bound
to. A function value is described alike but for its name, which is `X` in the second form. A
function declaration that has the name is described alike. The checks of a signature cannot tell
the forms apart, and `X` is not among the named functions. -/
theorem defaultExport_forms (m m' : Module) (X : String) (hX : m'.ExportsName X) :
    X ∉ m'.namedFunctions ∧
    (∀ f f', f.kind? = some .functionValue → m.ExportsValue f → m'.BindsValue X f' →
      m.SameSource f m' f' →
      ∃ g, m.defaultExport = some (.function g) ∧
        m'.defaultExport = some (.function { g with name := some X }) ∧ SameChecks m m') ∧
    ∀ d d', d.kind? = some .functionDeclaration → m.nameOf d = some X → m.ExportsDeclaration d →
      m'.OnlyDeclared X d' → m.SameSource d m' d' →
      ∃ g, m.defaultExport = some (.function g) ∧ m'.defaultExport = some (.function g) ∧
        SameChecks m m' := by
  refine ⟨hX.not_mem_namedFunctions, ?_, ?_⟩
  · intro f f' hk hf hf' hsame
    have hd : m.defaultExport = some (.function (m.functionShape f (m.nameOf f))) := by
      rw [hf.defaultExport (by rw [hk]; decide), describe_function hk]
    have hd' : m'.defaultExport
        = some (.function { m.functionShape f (m.nameOf f) with name := some X }) := by
      rw [hX.defaultExport, hf'.resolve (hsame.kind ▸ hk), ← hsame.functionShape]
      rfl
    exact ⟨_, hd, hd', fun p c c' hm hm' r hr => Rule.check_eq_of_defaultExport hm hm' hd hd' hr⟩
  · intro d d' hk hn he hd hsame
    have hd' : m'.defaultExport = some (.function (m.functionShape d (m.nameOf d))) := by
      rw [hX.defaultExport, hd.resolve (hsame.kind ▸ hk), ← hsame.functionShape, hn]
    exact ⟨_, he.defaultExport hk, hd', fun p c c' hm hm' r hr =>
      Rule.check_eq_of_defaultExport hm hm' (he.defaultExport hk) hd' hr⟩

theorem defaultExport_forms_text :
    (∃ m m', Module.parse arrowText "f.ts" = .ok m ∧ Module.parse namedArrowText "f.ts" = .ok m' ∧
      "f" ∉ m'.namedFunctions ∧ ∃ g, m.defaultExport = some (.function g) ∧
        m'.defaultExport = some (.function { g with name := some "f" }) ∧ SameChecks m m') ∧
    ∃ m m', Module.parse declarationText "f.ts" = .ok m ∧
      Module.parse namedDeclarationText "f.ts" = .ok m' ∧ "f" ∉ m'.namedFunctions ∧
      ∃ g, m.defaultExport = some (.function g) ∧ m'.defaultExport = some (.function g) ∧
        SameChecks m m' := by
  constructor
  · obtain ⟨m, m', hm, hm', h⟩ := exists_of_bothParse arrow_forms
    obtain ⟨hX, h⟩ := Bool.and_eq_true_iff.mp h
    obtain ⟨f, hf, h⟩ := (Option.any_eq_true _ _).mp h
    obtain ⟨f', hf', h⟩ := (Option.any_eq_true _ _).mp h
    obtain ⟨hk, hsame⟩ := of_decide_eq_true h
    obtain ⟨hnamed, hvalue, -⟩ := defaultExport_forms m m' "f" (exportsName_of_eq hX)
    exact ⟨m, m', hm, hm', hnamed,
      hvalue f f' hk (exportsValue_of_eq hf) (bindsValue_of_eq hf') hsame⟩
  · obtain ⟨m, m', hm, hm', h⟩ := exists_of_bothParse declaration_forms
    obtain ⟨hX, h⟩ := Bool.and_eq_true_iff.mp h
    obtain ⟨d, hd, h⟩ := (Option.any_eq_true _ _).mp h
    obtain ⟨d', hd', h⟩ := (Option.any_eq_true _ _).mp h
    obtain ⟨hk, hn, hsame⟩ := of_decide_eq_true h
    obtain ⟨hnamed, -, hdeclaration⟩ := defaultExport_forms m m' "f" (exportsName_of_eq hX)
    exact ⟨m, m', hm, hm', hnamed,
      hdeclaration d d' hk hn (exportsDeclaration_of_eq hd) (onlyDeclared_of_eq hd') hsame⟩

end Module

end ConventionLint
