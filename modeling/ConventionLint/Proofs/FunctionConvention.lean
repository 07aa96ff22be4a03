import ConventionLint.Proofs.Scan
import ConventionLint.Proofs.Text

/-! The rules for the function area accept exactly the files that keep the function convention. -/
namespace ConventionLint

open Run Text

variable {d : Volume} {s : RunState} {x : Context} {m : Module} {r : Rule}

/-! A module's file name ends with one of the extensions of modules. -/

theorem Module.extension_cases (path : String) : extension path = "" ∨
    ∃ front e, path.toList = front ++ '.' :: e ∧ extension path = String.ofList ('.' :: e) := by
  unfold extension
  dsimp only
  split
  · rename_i hd
    obtain ⟨r, hr⟩ := eq_takeWhile_append (List.contains_iff_mem.mp hd)
    obtain ⟨rest, hrest⟩ :=
      List.takeWhile_prefix (l := path.toList.reverse) fun c => c ≠ '/' && c ≠ '\\'
    have hp := congrArg List.reverse (hrest.symm.trans (congrArg (· ++ rest) hr))
    rw [List.reverse_reverse] at hp
    exact Or.inr ⟨(r ++ rest).reverse, _, hp.trans (by simp), rfl⟩
  · exact Or.inl rfl

theorem Module.extension_of_parse {text path : String} (h : Module.parse text path = .ok m) :
    ∃ front, ∃ e ∈ ["ts", "mts", "cts", "tsx"], path.toList = front ++ '.' :: e.toList := by
  have he : extension path ∈ dialects.map (·.1) := by
    unfold parse dialect? at h
    cases hf : dialects.find? fun d => d.1 = extension path with
    | none =>
      rw [hf] at h
      cases h
    | some dialect =>
      have hd : dialect.1 = extension path := by simpa using List.find?_some hf
      exact List.mem_map.mpr ⟨dialect, List.mem_of_find?_eq_some hf, hd⟩
  obtain hn | ⟨front, e, hp, hx⟩ := extension_cases path
  · rw [hn] at he
    simp [dialects] at he
  · refine ⟨front, String.ofList e, ?_, by simpa using hp⟩
    rw [hx] at he
    have hm : String.ofList e ∈ dialects.map fun d => String.ofList d.1.toList.tail := by
      obtain ⟨dialect, hd, hde⟩ := List.mem_map.mp he
      refine List.mem_map.mpr ⟨dialect, hd, ?_⟩
      rw [hde, String.toList_ofList, List.tail_cons]
    exact hm

/-- The last component of a path ends as the text of the path does. -/
theorem Path.name_parse {s : String} {front back : List Char} (h : s.toList = front ++ back)
    (hb : '/' ∉ back) (hn : 2 ≤ back.length) :
    ∃ part, (Path.parse s).parts.getLast? = some (String.ofList (part ++ back)) := by
  obtain ⟨parts, part, hp⟩ := splitAt_append_end hb front
  refine ⟨part, ?_⟩
  have hk : part ++ back ≠ [] ∧ part ++ back ≠ ['.'] := by
    constructor <;> intro he <;> have hl := congrArg List.length he
    · rw [List.length_append, List.length_nil] at hl
      omega
    · rw [List.length_append, List.length_singleton] at hl
      omega
  simp [Path.parse, h, hp, List.filter_append, hk]

theorem lowerAfter_append (before front back : List Char) :
    ∃ u, lowerAfter before (front ++ back) = u ++ lowerAfter (front.reverse ++ before) back := by
  induction front generalizing before with
  | nil => exact ⟨[], rfl⟩
  | cons c front ih =>
    obtain ⟨u, hu⟩ := ih (c :: before)
    have hb : (c :: front).reverse ++ before = front.reverse ++ c :: before := by simp
    rw [List.cons_append, lowerAfter, hu, hb]
    exact ⟨_, (List.append_assoc _ _ _).symm⟩

theorem ending_of_module {e : String} (he : e ∈ ["ts", "mts", "cts", "tsx"]) :
    '/' ∉ '.' :: e.toList ∧ 2 ≤ ('.' :: e.toList).length ∧ '.' ∉ e.toList ∧
      Rule.scriptSuffixes.contains (String.ofList ('.' :: e.toList)) = false := by
  revert e
  decide

theorem lowerAfter_ending {e : String} (he : e ∈ ["ts", "mts", "cts", "tsx"])
    (before : List Char) : lowerAfter before ('.' :: e.toList) = '.' :: e.toList := by
  simp only [List.mem_cons, List.not_mem_nil, or_false] at he
  rcases he with rfl | rfl | rfl | rfl <;> rfl

theorem fileName_of_parse (h : Module.parse x.content x.file = .ok m) :
    ∃ front, ∃ e ∈ ["ts", "mts", "cts", "tsx"], x.fileName.toList = front ++ '.' :: e.toList := by
  obtain ⟨front, e, he, hx⟩ := Module.extension_of_parse h
  obtain ⟨hs, hlen, -⟩ := ending_of_module he
  obtain ⟨part, hp⟩ := Path.name_parse hx hs hlen
  refine ⟨part, e, he, ?_⟩
  have hn : x.absolutePath.parts.getLast? = some (String.ofList (part ++ '.' :: e.toList)) := by
    unfold Place.absolutePath Path.join
    split
    · exact hp
    · simp [List.getLast?_append, hp]
  simp [Place.fileName, Path.name, List.getLastD_eq_getLast?, hn]

/-- A module is no script. -/
theorem suffix_of_parse (h : Module.parse x.content x.file = .ok m) :
    Rule.scriptSuffixes.contains
      (Path.suffixOf (String.ofList (lower x.fileName.toList))) = false := by
  obtain ⟨front, e, he, hx⟩ := fileName_of_parse h
  obtain ⟨u, hu⟩ := lowerAfter_append [] front ('.' :: e.toList)
  obtain ⟨-, -, hd, hn⟩ := ending_of_module he
  rw [hx, lower, hu, lowerAfter_ending he]
  unfold Path.suffixOf
  rw [String.toList_ofList, splitLast?_append hd]
  dsimp only
  split
  · decide
  · exact hn

namespace Rule

/-- A result that is no complaint. -/
def Quiet (v : Except Failure Outcome) : Prop := ∀ o, v = .ok o → o.message? = none

theorem quiet_ok {o : Outcome} : Quiet (.ok o) ↔ o.message? = none := by
  simp [Quiet]

theorem quiet_passIf {condition : Bool} {message : String} :
    Quiet (.ok (.passIf condition message)) ↔ condition = true := by
  cases condition <;> simp [quiet_ok, Outcome.passIf, Outcome.failed, Outcome.message?]

/-- A rule has no diagnostic on a file if its check does not complain or is not made. -/
theorem silent_iff : (∀ y, r.verdict d s x ≠ .ok (some y)) ↔
    (r.governs x.toPlace = true → Quiet ((r.check x).exec d s).1) := by
  rw [verdict_eq, exec_outcome_fst]
  cases r.governs x.toPlace with
  | false => simp [Except.map, diagnostic?, Outcome.skipped, Outcome.message?]
  | true =>
    cases ((r.check x).exec d s).1 with
    | ok o =>
      cases ho : o.message? <;> simp [Except.map, diagnostic?, quiet_ok, ho]
    | error e =>
      cases he : e.isParse <;>
        simp [he, Except.map, diagnostic?, Outcome.skipped, Outcome.message?, Quiet]

variable {k : NamingClass} {f : FunctionShape}

theorem exec_module (hm : Module.parse x.content x.file = .ok m) :
    x.module.exec d s = (.ok m, s) := by
  simp [Context.module, hm]

theorem exec_defaultFunction? (hm : Module.parse x.content x.file = .ok m)
    (hf : m.defaultExport = some (.function f)) :
    (defaultFunction? x).exec d s = (.ok (some f), s) := by
  rw [defaultFunction?, exec_bind_ok (exec_module hm), hf]
  rfl

theorem quiet_functionFileName : Quiet ((functionFileName.check x).exec d s).1 ↔
    ∃ k, x.conventions.classOf? x.fileName = some k := by
  rw [← Option.isSome_iff_exists]
  exact quiet_passIf

theorem quiet_functionPathDepth : Quiet ((functionPathDepth.check x).exec d s).1 ↔
    x.areaParts.length ≤ 2 :=
  quiet_passIf.trans decide_eq_true_iff

/-- The two rules on the default export ask for a function. -/
theorem quiet_defaultExport (hm : Module.parse x.content x.file = .ok m) :
    Quiet ((functionDefaultExport.check x).exec d s).1 ∧
      Quiet ((functionDefaultExportIsFunction.check x).exec d s).1 ↔
    ∃ f, m.defaultExport = some (.function f) := by
  have he : (functionDefaultExport.check x).exec d s = _ := exec_bind_ok (exec_module hm) _
  have hi : (functionDefaultExportIsFunction.check x).exec d s = _ :=
    exec_bind_ok (exec_module hm) _
  rw [he, hi, exec_pure, quiet_passIf]
  rcases m.defaultExport with _ | f | _
  · simp
  · simp [quiet_ok, Outcome.message?]
  · simp [quiet_ok, Outcome.failed, Outcome.message?]

theorem quiet_functionSingleExport (hm : Module.parse x.content x.file = .ok m) :
    Quiet ((functionSingleExport.check x).exec d s).1 ↔ m.namedFunctions = [] := by
  have he : (functionSingleExport.check x).exec d s = _ := exec_bind_ok (exec_module hm) _
  rw [he, exec_pure, quiet_passIf, List.isEmpty_iff]

theorem quiet_functionParameterCount (hm : Module.parse x.content x.file = .ok m)
    (hf : m.defaultExport = some (.function f)) (hk : x.conventions.classOf? x.fileName = some k) :
    Quiet ((functionParameterCount.check x).exec d s).1 ↔
      f.parameters.length = k.parameters.length := by
  unfold functionParameterCount withClass
  simp only [hk]
  rw [countsParameters, exec_bind_ok (exec_defaultFunction? hm hf), exec_pure, quiet_passIf,
    decide_eq_true_iff]

theorem quiet_marksParameter {subject : String} {roles : List ParameterRole} {role : ParameterRole}
    (hm : Module.parse x.content x.file = .ok m) (hf : m.defaultExport = some (.function f)) :
    Quiet ((marksParameter x subject roles role false).exec d s).1 ↔
      ∀ i, roles.findIdx? (· = role) = some i → ∀ p, f.parameters[i]? = some p →
        (x.conventions.roleMarker role).toList <:+: p.typeText.toList := by
  unfold marksParameter
  cases hi : roles.findIdx? (· = role) with
  | none => simp [quiet_ok, Outcome.skipped, Outcome.message?]
  | some i =>
    dsimp only
    rw [exec_bind_ok (exec_defaultFunction? hm hf)]
    dsimp only
    cases hp : f.parameters[i]? with
    | none => simp [quiet_ok, Outcome.skipped, Outcome.message?, hp]
    | some p => simp [quiet_passIf, contains_iff, hp]

theorem findIdx?_of_nodup {roles : List ParameterRole} (hn : roles.Nodup) {role : ParameterRole}
    {i : Nat} : roles.findIdx? (· = role) = some i ↔ roles[i]? = some role := by
  rw [List.findIdx?_eq_some_iff_getElem, List.getElem?_eq_some_iff]
  refine exists_congr fun hi => ?_
  simp only [decide_eq_true_iff, and_iff_left_iff_imp]
  rintro rfl j hj he
  exact List.pairwise_iff_getElem.mp hn j i (Nat.lt_trans hj hi) hi hj he

/-- The rules on the two kinds of parameters ask for the marker of each parameter's role. -/
theorem quiet_parameters (hm : Module.parse x.content x.file = .ok m)
    (hf : m.defaultExport = some (.function f)) (hk : x.conventions.classOf? x.fileName = some k)
    (hn : k.parameters.Nodup) :
    Quiet ((functionPortalParameter.check x).exec d s).1 ∧
      Quiet ((functionArgsParameter.check x).exec d s).1 ↔
    ∀ (i : Nat) role, k.parameters[i]? = some role → ∀ p, f.parameters[i]? = some p →
      (x.conventions.roleMarker role).toList <:+: p.typeText.toList := by
  unfold functionPortalParameter functionArgsParameter withClass
  simp only [hk, quiet_marksParameter hm hf, findIdx?_of_nodup hn]
  constructor
  · rintro ⟨hp, ha⟩ i role
    cases role
    · exact hp i
    · exact ha i
  · intro h
    exact ⟨fun i => h i .portal, fun i => h i .args⟩

theorem quiet_functionReturnType (hm : Module.parse x.content x.file = .ok m)
    (hf : m.defaultExport = some (.function f)) (hk : x.conventions.classOf? x.fileName = some k)
    {marker : String} (hr : x.conventions.resultMarker k = .ok marker) :
    Quiet ((functionReturnType.check x).exec d s).1 ↔
      ∃ text, f.returnType = some text ∧ text ≠ "" ∧ marker.toList <:+: text.toList := by
  unfold functionReturnType withClass
  simp only [hk, hr]
  rw [exec_bind_ok (exec_ofExcept _ _), marksResult, exec_bind_ok (exec_defaultFunction? hm hf)]
  dsimp only
  split
  · rename_i hn
    simp [hn, quiet_ok, Outcome.failed, Outcome.message?]
  · rename_i hn
    simp [hn, quiet_ok, Outcome.failed, Outcome.message?]
  · rename_i text hne ht
    have hn : text ≠ "" := hne
    simp [ht, hn, quiet_passIf, contains_iff]

theorem quiet_functionDbImportsTypeOnly (hm : Module.parse x.content x.file = .ok m) :
    Quiet ((functionDbImportsTypeOnly.check x).exec d s).1 ↔
      ∀ i ∈ m.imports,
        (x.conventions.setting .connectionMarker).toList <:+: i.module.toList →
          i.typeOnly = true ∨ ∃ n ∈ i.names, n.typeOnly = true := by
  have hf : (m.imports.find? fun i => isConnection x.conventions i && !isForTypes i) = none ↔
      ∀ i ∈ m.imports,
        (x.conventions.setting .connectionMarker).toList <:+: i.module.toList →
          i.typeOnly = true ∨ ∃ n ∈ i.names, n.typeOnly = true := by
    rw [List.find?_eq_none]
    refine forall₂_congr fun i _ => ?_
    rw [← contains_iff]
    unfold isConnection isForTypes
    cases contains (x.conventions.setting .connectionMarker).toList i.module.toList with
    | false => simp
    | true => cases i.typeOnly <;> simp
  have he : (functionDbImportsTypeOnly.check x).exec d s = _ := exec_bind_ok (exec_module hm) _
  rw [he, ← hf]
  split
  · rename_i hn
    simp [hn, quiet_ok, Outcome.message?]
  · rename_i i hn
    simp [hn, quiet_ok, Outcome.failed, Outcome.message?]

theorem quiet_functionPortalDatabase (hs : x.conventions.strictPortal = false) :
    Quiet ((functionPortalDatabase.check x).exec d s).1 := by
  unfold functionPortalDatabase
  simp only
  split
  · simp [quiet_ok, Outcome.skipped, Outcome.message?]
  · rcases hx : catalog.exec d s with ⟨e | k, t⟩
    · rw [exec_bind_error hx]
      simp [Quiet]
    · rw [exec_bind_ok hx]
      split <;> simp [hs, quiet_ok, Outcome.skipped, Outcome.message?]

theorem quiet_noJavaScript (hm : Module.parse x.content x.file = .ok m) :
    Quiet ((noJavaScript.check x).exec d s).1 := by
  unfold noJavaScript onPath
  simp only [suffix_of_parse hm]
  simp [quiet_ok, Outcome.message?]

/-- A file of an area is not directly in the project's directory. -/
theorem quiet_noTypeScriptInRoot {a : Area} (ha : x.area? = some a) :
    Quiet ((noTypeScriptInRoot.check x).exec d s).1 := by
  obtain ⟨path, hp, ha⟩ := Option.bind_eq_some_iff.mp ha
  have hs := List.find?_some ha
  rw [after?_isSome_iff] at hs
  have hm : '/' ∈ path.toList := hs.subset (by simp [Conventions.areaFront])
  refine quiet_passIf.mpr ?_
  simp [hp, hm]

theorem governs_of_area {a : Area} (ha : x.area? = some a) (ht : x.isTest = false)
    (hg : r.governs x.toPlace = true) :
    (r.area = generalArea ∨ r.area = a.name) ∧ r.targets ≠ .test := by
  unfold governs at hg
  rw [Bool.and_eq_true] at hg
  constructor
  · by_cases hr : r.area = generalArea
    · exact Or.inl hr
    · right
      have hn : some a.name = some r.area := by simpa [hr, ha] using hg.1
      exact (Option.some.inj hn).symm
  · intro hr
    simp [hr, ht] at hg

theorem governs_area {a : Area} (ha : x.area? = some a) (ht : x.isTest = false)
    (hr : r.area = a.name) (hx : r.targets ≠ .test) : r.governs x.toPlace = true := by
  have hg : ¬ a.name = generalArea := by cases a <;> decide
  cases hy : r.targets with
  | test => exact (hx hy).elim
  | source | all => simp [governs, hr, hy, hg, ha, ht]

/-- The rules for the source files of an area, apart from those for all areas. -/
def areaRules (a : Area) : List Rule :=
  Registry.builtin.entries.filter fun r => r.area = a.name ∧ r.targets ≠ .test

theorem filter_general :
    Registry.builtin.entries.filter (fun r => r.area = generalArea ∧ r.targets ≠ .test) =
      [noJavaScript, noTypeScriptInRoot] := rfl

/-- A module of an area is silent for the rules of its area, or it is not for all rules. -/
theorem silent_area_iff {a : Area} (ha : x.area? = some a) (ht : x.isTest = false)
    (hm : Module.parse x.content x.file = .ok m) :
    (∀ r ∈ Registry.builtin.entries, ∀ y, r.verdict d s x ≠ .ok (some y)) ↔
      ∀ r ∈ areaRules a, Quiet ((r.check x).exec d s).1 := by
  simp only [silent_iff]
  constructor
  · intro h r hr
    obtain ⟨hr, harea⟩ := List.mem_filter.mp hr
    rw [decide_eq_true_iff] at harea
    exact h r hr (governs_area ha ht harea.1 harea.2)
  · intro h r hr hg
    obtain ⟨hgeneral | harea, htargets⟩ := governs_of_area ha ht hg
    · have hmem : r ∈ Registry.builtin.entries.filter
          (fun r => r.area = generalArea ∧ r.targets ≠ .test) :=
        List.mem_filter.mpr ⟨hr, decide_eq_true ⟨hgeneral, htargets⟩⟩
      rw [filter_general] at hmem
      simp only [List.mem_cons, List.not_mem_nil, or_false] at hmem
      rcases hmem with rfl | rfl
      · exact quiet_noJavaScript hm
      · exact quiet_noTypeScriptInRoot ha
    · exact h r (List.mem_filter.mpr ⟨hr, decide_eq_true ⟨harea, htargets⟩⟩)

/-- The rules that state the function convention. -/
def conventionRules : List Rule :=
  [functionFileName, functionPathDepth, functionDefaultExport, functionDefaultExportIsFunction,
   functionSingleExport, functionParameterCount, functionPortalParameter, functionArgsParameter,
   functionReturnType, functionDbImportsTypeOnly]

theorem areaRules_function : areaRules .function =
    conventionRules.take 9 ++ functionPortalDatabase :: conventionRules.drop 9 := rfl

theorem silent_builtin_iff (ha : x.area? = some .function) (ht : x.isTest = false)
    (hm : Module.parse x.content x.file = .ok m) (hs : x.conventions.strictPortal = false) :
    (∀ r ∈ Registry.builtin.entries, ∀ y, r.verdict d s x ≠ .ok (some y)) ↔
      ∀ r ∈ conventionRules, Quiet ((r.check x).exec d s).1 := by
  rw [silent_area_iff ha ht hm, areaRules_function]
  constructor
  · intro h r hr
    rw [← List.take_append_drop 9 conventionRules, List.mem_append] at hr
    rcases hr with hr | hr
    · exact h r (List.mem_append_left _ hr)
    · exact h r (List.mem_append_right _ (List.mem_cons_of_mem _ hr))
  · intro h r hr
    rcases List.mem_append.mp hr with hr | hr
    · exact h r (List.mem_of_mem_take hr)
    · rcases List.mem_cons.mp hr with rfl | hr
      · exact quiet_functionPortalDatabase hs
      · exact h r (List.mem_of_mem_drop hr)

end Rule

/-- A function file keeps the convention of its naming class. -/
structure KeepsConvention (x : Context) (m : Module) (k : NamingClass) (f : FunctionShape) :
    Prop where
  named : x.conventions.classOf? x.fileName = some k
  depth : x.areaParts.length ≤ 2
  exported : m.defaultExport = some (.function f)
  single : m.namedFunctions = []
  count : f.parameters.length = k.parameters.length
  marked : ∀ (i : Nat) role, k.parameters[i]? = some role → ∀ p, f.parameters[i]? = some p →
    (x.conventions.roleMarker role).toList <:+: p.typeText.toList
  result : ∃ marker text, x.conventions.resultMarker k = .ok marker ∧
    f.returnType = some text ∧ text ≠ "" ∧ marker.toList <:+: text.toList
  imports : ∀ i ∈ m.imports,
    (x.conventions.setting .connectionMarker).toList <:+: i.module.toList →
      i.typeOnly = true ∨ ∃ n ∈ i.names, n.typeOnly = true

/-- The rules of the convention complain unless the convention is kept. -/
theorem quiet_iff_keepsConvention (hc : x.conventions.Consistent)
    (hm : Module.parse x.content x.file = .ok m)
    (hn : ∀ k, x.conventions.classOf? x.fileName = some k → k.parameters.Nodup) :
    (∀ r ∈ Rule.conventionRules, Rule.Quiet ((r.check x).exec d s).1) ↔
      ∃ k f, KeepsConvention x m k f := by
  simp only [Rule.conventionRules, List.forall_mem_cons, List.not_mem_nil, false_imp_iff,
    implies_true, and_true]
  constructor
  · rintro ⟨hname, hdepth, hdefault, hfunction, hsingle, hcount, hportal, hargs, hreturn, himports⟩
    obtain ⟨k, hk⟩ := Rule.quiet_functionFileName.mp hname
    obtain ⟨f, hf⟩ := (Rule.quiet_defaultExport hm).mp ⟨hdefault, hfunction⟩
    obtain ⟨marker, hr⟩ := Rule.resultMarker_known hc (Rule.classOf?_mem hk)
    obtain ⟨text, ht⟩ := (Rule.quiet_functionReturnType hm hf hk hr).mp hreturn
    exact ⟨k, f, {
      named := hk
      depth := Rule.quiet_functionPathDepth.mp hdepth
      exported := hf
      single := (Rule.quiet_functionSingleExport hm).mp hsingle
      count := (Rule.quiet_functionParameterCount hm hf hk).mp hcount
      marked := (Rule.quiet_parameters hm hf hk (hn k hk)).mp ⟨hportal, hargs⟩
      result := ⟨marker, text, hr, ht⟩
      imports := (Rule.quiet_functionDbImportsTypeOnly hm).mp himports }⟩
  · rintro ⟨k, f, h⟩
    obtain ⟨marker, text, hr, ht⟩ := h.result
    obtain ⟨hdefault, hfunction⟩ := (Rule.quiet_defaultExport hm).mpr ⟨f, h.exported⟩
    obtain ⟨hportal, hargs⟩ :=
      (Rule.quiet_parameters hm h.exported h.named (hn k h.named)).mpr h.marked
    exact ⟨Rule.quiet_functionFileName.mpr ⟨k, h.named⟩,
      Rule.quiet_functionPathDepth.mpr h.depth, hdefault, hfunction,
      (Rule.quiet_functionSingleExport hm).mpr h.single,
      (Rule.quiet_functionParameterCount hm h.exported h.named).mpr h.count, hportal, hargs,
      (Rule.quiet_functionReturnType hm h.exported h.named hr).mpr ⟨text, ht⟩,
      (Rule.quiet_functionDbImportsTypeOnly hm).mpr h.imports⟩

/-- The databases are asked for, and the scan for them is blocked. -/
def Context.Stops (x : Context) (d : Volume) (s : RunState) : Prop :=
  (Rule.portalVariable? x.conventions x.content).isSome = true ∧ s.resources.catalog = none ∧
    Scan.Blocked d s.resources.root s.resources.conventions

theorem shares_eq_nil_iff {g : Registry} :
    (Rule.shares d s x (g.select x.toPlace none false)).diagnostics = [] ↔
      ∀ r ∈ g.entries, ∀ y, r.verdict d s x ≠ .ok (some y) := by
  simp only [List.eq_nil_iff_forall_not_mem, Rule.mem_shares_diagnostics, not_exists, not_and]
  constructor
  · intro h r hr y hv
    cases hg : r.governs x.toPlace with
    | false =>
      rw [Rule.verdict_of_not_governs hg] at hv
      cases hv
    | true => exact h y r (Registry.mem_select.mpr ⟨hr, hg, nofun⟩) hv
  · intro h y r hr
    exact h r (Registry.mem_select.mp hr).1 y

theorem dispatch_of_stops (hc : x.conventions.Consistent) (ha : x.area? = some .function)
    (ht : x.isTest = false) (hx : x.Stops d s) :
    ((Registry.builtin.dispatch x none false).exec d s).1 = .error (.scan (.pattern .absolute)) := by
  rw [exec_dispatch_fst fun r hr => Rule.steady_check hc hr, (Rule.escapes_select_iff hc).mpr
    ⟨rfl, ha, ht, hx.1, known_eq_absolute_iff.mpr hx.2, rfl⟩]

theorem dispatch_of_not_stops (hc : x.conventions.Consistent) (hx : ¬ x.Stops d s) :
    ((Registry.builtin.dispatch x none false).exec d s).1
      = .ok (Rule.shares d s x (Registry.builtin.select x.toPlace none false)).diagnostics := by
  rw [exec_dispatch_fst fun r hr => Rule.steady_check hc hr]
  cases he : (Registry.builtin.select x.toPlace none false).findSome? fun r =>
      escape? (r.verdict d s x) with
  | none => rfl
  | some e =>
    obtain ⟨-, -, -, hv, hb, -⟩ := (Rule.escapes_select_iff hc).mp he
    exact (hx ⟨hv, known_eq_absolute_iff.mp hb⟩).elim

/-- A source file of the function area is accepted if and only if it keeps the convention and the scan
for databases, if it asks for it, is not blocked. -/
theorem dispatch_accepts_iff {v : Data.Value} (hc : Conventions.ofValue v = .ok x.conventions)
    (hs : x.conventions.strictPortal = false) (ha : x.area? = some .function)
    (ht : x.isTest = false) (hm : Module.parse x.content x.file = .ok m)
    (hn : ∀ k, x.conventions.classOf? x.fileName = some k → k.parameters.Nodup) :
    (((Registry.builtin.dispatch x none false).exec d s).1 = .ok [] ↔
      (∃ k f, KeepsConvention x m k f) ∧ ¬ x.Stops d s) ∧
    (x.Stops d s → ((Registry.builtin.dispatch x none false).exec d s).1
      = .error (.scan (.pattern .absolute))) := by
  have hk := Conventions.ofValue_consistent hc
  refine ⟨?_, dispatch_of_stops hk ha ht⟩
  by_cases hx : x.Stops d s
  · simp [dispatch_of_stops hk ha ht hx, hx]
  · rw [dispatch_of_not_stops hk hx, Except.ok.injEq, shares_eq_nil_iff,
      Rule.silent_builtin_iff ha ht hm hs, quiet_iff_keepsConvention hk hm hn, and_iff_left hx]

/-- A function with a portal that has a database. -/
def portalFunction : Context where
  directory := ⟨.root, ["p"]⟩
  file := "src/function/fx.a.ts"
  conventions := {}
  workingDirectory := ⟨.root, []⟩
  content := "import type \x7b aDb \x7d from './conn.a';\n"
    ++ "export type TPortal = \x7b db: typeof aDb \x7d;\n"
    ++ "export default function f(portal: TPortal, args: TArgs): TErrTuple \x7b\x7d\n"

/-- The signature of a function that takes a portal and arguments. -/
def portalShape : FunctionShape where
  parameters := [⟨"portal", "TPortal", false⟩, ⟨"args", "TArgs", false⟩]
  returnType := some "TErrTuple"
  name := some "f"

theorem dispatch_accepts_portalFunction : ∃ m k f,
    Module.parse portalFunction.content portalFunction.file = .ok m ∧
      KeepsConvention portalFunction m k f ∧
      ((Registry.builtin.dispatch portalFunction none false).exec {}
        (.fresh portalFunction.directory {})).1 = .ok [] := by
  have hp : (Module.parse portalFunction.content portalFunction.file).toOption.any fun m =>
      m.defaultExport = some (.function portalShape) && m.namedFunctions = [] &&
        m.imports.all (·.typeOnly) := by
    decide +kernel
  obtain ⟨m, hm, h⟩ := exists_ok_of_any hp
  simp only [Bool.and_eq_true, decide_eq_true_iff, List.all_eq_true] at h
  have hk : KeepsConvention portalFunction m
      ⟨"fx.", "Effectful function", "tuple", [.portal, .args]⟩ portalShape :=
    { named := rfl
      depth := by decide
      exported := h.1.1
      single := h.1.2
      count := rfl
      marked := by
        rintro (_ | _ | i) role ⟨⟩ p ⟨⟩ <;> exact contains_iff.mp (by decide)
      result := ⟨"TErrTuple", "TErrTuple", rfl, rfl, by decide, List.infix_refl _⟩
      imports := fun i hm _ => Or.inl (h.2 i hm) }
  have hx : ¬ portalFunction.Stops {} (.fresh portalFunction.directory {}) :=
    fun hx => Scan.not_blocked_standard _ _ hx.2.2
  have hn : ∀ k, portalFunction.conventions.classOf? portalFunction.fileName = some k →
      k.parameters.Nodup := by
    rintro k ⟨⟩
    decide
  exact ⟨m, _, _, hm, hk, (dispatch_accepts_iff (v := .null) rfl rfl (by decide +kernel)
    (by decide +kernel) hm hn).1.mpr ⟨⟨_, _, hk⟩, hx⟩⟩

/-- Conventions with a connection marker that starts at the root. -/
def rootedConventions : Conventions where
  setting s := if s = .connectionMarker then "/conn." else s.standard

theorem ofValue_rootedConventions :
    Conventions.ofValue (.map [(.text "connection_path_marker", .text "/conn.")])
      = .ok rootedConventions := rfl

/-- A function that declares a database and takes arguments only. -/
def rootedFunction : Context where
  directory := ⟨.root, ["p"]⟩
  file := "src/function/fn.a.ts"
  conventions := rootedConventions
  workingDirectory := ⟨.root, []⟩
  content := "export type TPortal = \x7b db: typeof x \x7d;\n"
    ++ "export default function f(args: TArgs): TErrTuple \x7b\x7d\n"

/-- A project with a database area. -/
def databaseProject : Disk where
  entries := [(["p"], .directory), (["p", "src"], .directory), (["p", "src", "database"], .directory)]

/-- A function that keeps the convention and is not accepted. -/
theorem dispatch_rootedFunction :
    Conventions.ofValue (.map [(.text "connection_path_marker", .text "/conn.")])
        = .ok rootedFunction.conventions ∧
      (∃ m k f, Module.parse rootedFunction.content rootedFunction.file = .ok m ∧
        KeepsConvention rootedFunction m k f) ∧
      ((Registry.builtin.dispatch rootedFunction none false).exec databaseProject
        (.fresh rootedFunction.directory rootedFunction.conventions)).1
          = .error (.scan (.pattern .absolute)) := by
  have hc := Conventions.ofValue_consistent ofValue_rootedConventions
  have hp : (Module.parse rootedFunction.content rootedFunction.file).toOption.any fun m =>
      m.defaultExport = some (.function
        { parameters := [⟨"args", "TArgs", false⟩], returnType := some "TErrTuple"
          name := some "f" }) && m.namedFunctions = [] && m.imports = [] := by
    decide +kernel
  obtain ⟨m, hm, h⟩ := exists_ok_of_any hp
  simp only [Bool.and_eq_true, decide_eq_true_iff] at h
  refine ⟨ofValue_rootedConventions, ⟨m, ⟨"fn.", "Pure function", "tuple", [.args]⟩, _, hm,
    { named := rfl
      depth := by decide
      exported := h.1.1
      single := h.1.2
      count := rfl
      marked := by
        rintro (_ | i) role ⟨⟩ p ⟨⟩
        exact contains_iff.mp (by decide)
      result := ⟨"TErrTuple", "TErrTuple", rfl, rfl, by decide, List.infix_refl _⟩
      imports := by simp [h.2] }⟩, ?_⟩
  exact dispatch_of_stops hc (by decide +kernel) (by decide +kernel)
    ⟨by decide +kernel, rfl, by decide +kernel⟩

end ConventionLint
