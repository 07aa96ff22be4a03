import ConventionLint.Proofs.DatabaseArea
import ConventionLint.Proofs.Location
import ConventionLint.Proofs.Names

/-! Messages of the rules. All they are put together from stands on one line, but for the example of a
test file and the module path of an import. -/
namespace ConventionLint

open Text

/-! What the parts of a message come from. -/

/-- Conventions whose texts stand on one line each. -/
structure Conventions.Lined (c : Conventions) : Prop where
  setting : ∀ k, IsLine (c.setting k)
  classes : ∀ k ∈ c.namingClasses, IsLine k.front ∧ IsLine k.label
  markers : ∀ e ∈ c.resultMarkers, IsLine e.2
  fronts : ∀ f ∈ c.databaseFronts, IsLine f
  docs : ∀ e ∈ c.docs, IsLine e.2

theorem Area.isLine_standardDoc (a : Area) : IsLine a.standardDoc := by
  cases a <;> exact isLine_ofList.mpr (by decide)

theorem Conventions.isLine_standardDocs {e : String × String} (h : e ∈ standardDocs) :
    IsLine e.2 := by
  rcases List.mem_append.mp h with h | h
  · obtain ⟨a, -, rfl⟩ := List.mem_map.mp h
    exact a.isLine_standardDoc
  · rw [List.mem_singleton.mp h]
    exact isLine_ofList.mpr (by decide)

namespace Conventions.Lined

variable {c : Conventions}

theorem lookup {entries : List (String × String)} (h : ∀ e ∈ entries, IsLine e.2) {key text : String}
    (hk : entries.lookup key = some text) : IsLine text := by
  obtain ⟨front, back, rfl, -⟩ := List.lookup_eq_some_iff.mp hk
  exact h (key, text) (by simp)

theorem docOf (h : c.Lined) {area doc : String} (hd : c.docOf area = .ok doc) : IsLine doc := by
  unfold Conventions.docOf at hd
  split at hd
  · rename_i standard hs
    cases hd
    cases hl : c.docs.lookup area with
    | none => exact lookup (fun _ => isLine_standardDocs) hs
    | some text => exact lookup h.docs hl
  · cases hd

theorem classOf? (h : c.Lined) {name : String} {k : NamingClass} (hk : c.classOf? name = some k) :
    IsLine k.label :=
  (h.classes k (Rule.classOf?_mem hk)).2

theorem roleMarker (h : c.Lined) (role : ParameterRole) : IsLine (c.roleMarker role) := by
  cases role
  · exact h.setting _
  · exact h.setting _

theorem roleTypes (h : c.Lined) (roles : List ParameterRole) : IsLine (c.roleTypes roles) := by
  refine isLine_intercalate (by decide) fun s hs => ?_
  obtain ⟨role, -, rfl⟩ := List.mem_map.mp hs
  exact isLine_append.mpr ⟨by decide, h.roleMarker role⟩

end Conventions.Lined

/-- A place whose path from the project, file name and conventions stand on one line each. -/
structure Place.Lined (p : Place) : Prop where
  conventions : p.conventions.Lined
  path : ∀ path, p.relativePath? = some path → IsLine path
  fileName : IsLine p.fileName

namespace Place.Lined

variable {p : Place}

theorem setting (h : p.Lined) (k : Setting) : IsLine (p.conventions.setting k) :=
  h.conventions.setting k

theorem relativePath (h : p.Lined) {standard : String} (hs : IsLine standard) :
    IsLine (p.relativePath?.getD standard) := by
  cases hp : p.relativePath? with
  | none => exact hs
  | some path => exact h.path path hp

theorem docPointer (h : p.Lined) : IsLine p.docPointer := by
  unfold Place.docPointer
  cases p.area? with
  | none => exact isLine_ofList.mpr List.not_mem_nil
  | some a =>
    refine isLine_append.mpr ⟨isLine_ofList.mpr (by decide), ?_⟩
    cases hd : p.conventions.docs.lookup a.name with
    | none => exact a.isLine_standardDoc
    | some doc => exact Conventions.Lined.lookup h.conventions.docs hd

theorem areaRelative (h : p.Lined) : IsLine (p.areaRelative?.getD "") := by
  cases ha : p.areaRelative? with
  | none => decide
  | some path =>
    obtain ⟨a, -, ha⟩ := Option.bind_eq_some_iff.mp ha
    obtain ⟨full, hf, ha⟩ := Option.bind_eq_some_iff.mp ha
    rw [← Option.some.inj ha]
    exact (h.path full hf).of_subset (List.drop_subset _ _)

theorem areaParts (h : p.Lined) : ∀ s ∈ p.areaParts, IsLine s := by
  intro s hs
  obtain ⟨r, hr, rfl⟩ := List.mem_map.mp hs
  exact h.areaRelative.of_subset (subset_of_mem_splitAt hr)

theorem foundName (h : p.Lined) : IsLine (Rule.foundName p) := by
  simp only [Rule.foundName, isLine_append, h.fileName, h.docPointer, and_true]
  and_intros <;> exact isLine_ofList.mpr (by decide)

theorem databaseRoot (h : p.Lined) : IsLine (Rule.databaseRoot p) :=
  (h.setting .databaseArea).of_subset (dropEnd_subset _ _)

end Place.Lined

/-! What runs give. -/
namespace Run

variable {α β ε : Type} {d : Volume} {k : Except ScanError Catalog} {P : α → Prop} {Q : β → Prop}

/-- Whenever a run that leads to the catalog `k` ends with an answer, the answer has a property. -/
def Gives (d : Volume) (k : Except ScanError Catalog) (r : Run α) (P : α → Prop) : Prop :=
  ∀ s, s.known d = k → ∀ a t, r.exec d s = (.ok a, t) → t.known d = k ∧ P a

theorem gives_pure {a : α} (h : P a) : Gives d k (pure a) P := by
  rintro s hs _ _ ⟨⟩
  exact ⟨hs, h⟩

theorem gives_bind {r : Run α} {f : α → Run β} (hr : Gives d k r P)
    (hf : ∀ a, P a → Gives d k (f a) Q) : Gives d k (r >>= f) Q := by
  intro s hs b t he
  rw [exec_bind] at he
  rcases hx : r.exec d s with ⟨_ | a, u⟩ <;> rw [hx] at he
  · cases he
  · obtain ⟨hu, ha⟩ := hr s hs a u hx
    exact hf a ha u hu b t he

theorem gives_record (level : Level) (source : LogSource) (text : String) :
    Gives d k (record level source text) fun _ => True := by
  rintro s hs _ _ ⟨⟩
  exact ⟨hs, trivial⟩

theorem gives_fail (e : Failure) : Gives d k (fail e) P := by
  rintro s hs _ _ ⟨⟩

theorem gives_read : Gives d k read fun _ => True := by
  rintro s hs _ _ ⟨⟩
  exact ⟨hs, trivial⟩

theorem gives_ofExcept (failure : ε → Failure) (x : Except ε α) :
    Gives d k (ofExcept failure x) fun a => x = .ok a := by
  cases x with
  | error e => exact gives_fail _
  | ok a => exact gives_pure rfl

theorem gives_catalog : Gives d k catalog fun c => k = .ok c := by
  intro s hs c t he
  -- the catalog found is the one every later question leads to
  obtain ⟨hresult, hknown, -⟩ := exec_catalog d s
  rw [he] at hresult hknown
  rw [hs] at hresult hknown
  refine ⟨hknown, ?_⟩
  cases k with
  | error e => cases hresult
  | ok c' =>
    cases hresult
    rfl

end Run

/-- An outcome whose message stands on one line. -/
def Outcome.Lined (o : Outcome) : Prop := ∀ message, o.message? = some message → IsLine message

namespace Outcome

theorem lined_pass : Lined pass := by
  rintro _ ⟨⟩

theorem lined_skipped (reason : String) : Lined (skipped reason) := by
  rintro _ ⟨⟩

theorem lined_failed_iff {message : String} : Lined (failed message) ↔ IsLine message := by
  simp [Lined, failed, message?]

theorem lined_failed {message : String} (h : IsLine message) : Lined (failed message) :=
  lined_failed_iff.mpr h

theorem lined_passIf {message : String} (condition : Bool) (h : IsLine message) :
    Lined (passIf condition message) := by
  cases condition with
  | true => exact lined_pass
  | false => exact lined_failed h

end Outcome

namespace Rule

open Run Outcome

variable {x : Context} {d : Volume} {k : Except ScanError Catalog}

/-- The check of a rule gives messages on one line. -/
def Lined (d : Volume) (k : Except ScanError Catalog) (r : Run Outcome) : Prop :=
  Gives d k r Outcome.Lined

theorem gives_module (x : Context) :
    Gives d k x.module fun m => Module.parse x.content x.file = .ok m :=
  gives_ofExcept _ _

set_option maxRecDepth 4000

/-! Paths. -/

theorem lined_functionFileName (h : x.toPlace.Lined) : Lined d k (functionFileName.check x) := by
  have hfronts : IsLine (alternatives (x.conventions.namingClasses.map (·.front))) := by
    refine isLine_alternatives fun s hs => ?_
    obtain ⟨c, hc, rfl⟩ := List.mem_map.mp hs
    exact (h.conventions.classes c hc).1
  refine gives_pure (lined_passIf _ ?_)
  simp only [isLine_append, hfronts, h.foundName, and_true]
  and_intros <;> exact isLine_ofList.mpr (by decide)

theorem lined_functionPathDepth (h : x.toPlace.Lined) : Lined d k (functionPathDepth.check x) := by
  refine gives_pure (lined_passIf _ ?_)
  simp only [isLine_append, isLine_toString, h.areaRelative, h.docPointer, and_true]
  and_intros <;> exact isLine_ofList.mpr (by decide)

theorem lined_controllerFileName (h : x.toPlace.Lined) : Lined d k (controllerFileName.check x) := by
  refine gives_pure (lined_passIf _ ?_)
  simp only [isLine_append, h.setting, h.foundName, and_true]
  and_intros <;> exact isLine_ofList.mpr (by decide)

theorem lined_apiFileName (h : x.toPlace.Lined) : Lined d k (apiFileName.check x) := by
  refine gives_pure (lined_passIf _ ?_)
  simp only [isLine_append, h.setting, h.foundName, and_true]
  and_intros <;> exact isLine_ofList.mpr (by decide)

theorem lined_databaseFileName (h : x.toPlace.Lined) : Lined d k (databaseFileName.check x) := by
  have hfronts := isLine_alternatives h.conventions.fronts
  refine gives_pure (lined_passIf _ ?_)
  simp only [isLine_append, hfronts, h.foundName, and_true]
  and_intros <;> exact isLine_ofList.mpr (by decide)

theorem lined_databaseFileNameMatchesDirectory (h : x.toPlace.Lined) :
    Lined d k (databaseFileNameMatchesDirectory.check x) := by
  unfold databaseFileNameMatchesDirectory onPath
  dsimp only
  split
  · rename_i database _ _ hp
    have hdatabase : IsLine database := h.areaParts database (by simp [hp])
    have hnames : IsLine (", ".intercalate (x.conventions.databaseFronts.map fun f =>
        f ++ database ++ ".ts")) := by
      refine isLine_intercalate (by decide) fun s hs => ?_
      obtain ⟨f, hf, rfl⟩ := List.mem_map.mp hs
      simp only [isLine_append, h.conventions.fronts f hf, hdatabase, true_and]
      decide
    refine gives_pure (lined_passIf _ ?_)
    simp only [isLine_append, hnames, hdatabase, h.fileName, h.databaseRoot, h.docPointer, and_true]
    and_intros <;> exact isLine_ofList.mpr (by decide)
  · exact gives_pure (lined_skipped _)

theorem lined_databasePathDepth (h : x.toPlace.Lined) : Lined d k (databasePathDepth.check x) := by
  have hpath : IsLine (x.relativePath?.getD "None") := h.relativePath (by decide)
  refine gives_pure (lined_passIf _ ?_)
  simp only [isLine_append, h.databaseRoot, hpath, h.docPointer, and_true]
  and_intros <;> exact isLine_ofList.mpr (by decide)

theorem lined_noJavaScript (h : x.toPlace.Lined) : Lined d k (noJavaScript.check x) := by
  have hpath : IsLine (x.relativePath?.getD "None") := h.relativePath (by decide)
  unfold noJavaScript onPath
  dsimp only
  split
  · refine gives_bind (gives_record _ _ _) fun _ _ => gives_pure (lined_failed ?_)
    simp only [isLine_append, hpath, and_true]
    and_intros <;> exact isLine_ofList.mpr (by decide)
  · exact gives_pure lined_pass

theorem lined_noTypeScriptInRoot (h : x.toPlace.Lined) : Lined d k (noTypeScriptInRoot.check x) := by
  have hpath : IsLine (x.relativePath?.getD "") := h.relativePath (by decide)
  refine gives_pure (lined_passIf _ ?_)
  simp only [isLine_append, hpath, h.setting, and_true]
  and_intros <;> exact isLine_ofList.mpr (by decide)

/-! Signatures. -/

theorem gives_defaultFunction? (x : Context) : Gives d k (defaultFunction? x) fun _ => True := by
  refine gives_bind (gives_module x) fun m _ => ?_
  split <;> exact gives_pure trivial

theorem isLine_found (h : x.toPlace.Lined) (text : String) : IsLine (found x text) := by
  simp only [found, isLine_append, isLine_oneLine, h.docPointer, and_true]
  and_intros <;> exact isLine_ofList.mpr (by decide)

theorem isLine_label (is : ValueClass) : IsLine is.label := by
  cases is <;> exact isLine_ofList.mpr (by decide)

theorem isLine_ordinal (position : Nat) : IsLine (ordinal position) := by
  unfold ordinal
  split
  · decide
  · decide
  · decide
  · exact isLine_append.mpr ⟨by decide, isLine_toString _⟩

theorem lined_exportsFunction (h : x.toPlace.Lined) {subject : String} (hs : IsLine subject) :
    Lined d k (exportsFunction x subject) := by
  refine gives_bind (gives_module x) fun m _ => ?_
  split
  · exact gives_pure (lined_skipped _)
  · exact gives_pure lined_pass
  · refine gives_pure (lined_failed ?_)
    simp only [isLine_append, hs, isLine_label, isLine_oneLine, h.docPointer, and_true, true_and]
    and_intros <;> exact isLine_ofList.mpr (by decide)

theorem lined_countsParameters (h : x.toPlace.Lined) {subject : String} (hs : IsLine subject)
    (roles : List ParameterRole) : Lined d k (countsParameters x subject roles) := by
  refine gives_bind (gives_defaultFunction? x) fun f _ => ?_
  split
  · exact gives_pure (lined_skipped _)
  · have hword : IsLine (if roles.length = 1 then " parameter (" else " parameters (") := by
      split <;> decide
    refine gives_pure (lined_passIf _ ?_)
    simp only [isLine_append, hs, hword, isLine_toString, h.conventions.roleTypes, isLine_found h,
      and_true, true_and]
    and_intros <;> exact isLine_ofList.mpr (by decide)

theorem lined_marksParameter (h : x.toPlace.Lined) {subject : String} (hs : IsLine subject)
    (roles : List ParameterRole) (role : ParameterRole) (ignoreCase : Bool) :
    Lined d k (marksParameter x subject roles role ignoreCase) := by
  unfold marksParameter
  split
  · exact gives_pure (lined_skipped _)
  · refine gives_bind (gives_defaultFunction? x) fun f _ => ?_
    split
    · exact gives_pure (lined_skipped _)
    · split
      · exact gives_pure (lined_skipped _)
      · refine gives_pure (lined_passIf _ ?_)
        simp only [isLine_append, hs, isLine_ordinal, h.conventions.roleMarker, isLine_found h,
          and_true, true_and]
        and_intros <;> exact isLine_ofList.mpr (by decide)

theorem lined_marksResult (h : x.toPlace.Lined) {subject marker : String} (hs : IsLine subject)
    (hm : IsLine marker) : Lined d k (marksResult x subject marker) := by
  refine gives_bind (gives_defaultFunction? x) fun f _ => ?_
  split
  · exact gives_pure (lined_skipped _)
  · have hmissing : IsLine (subject ++ " must have an explicit return type. Expected: " ++ marker
        ++ "<Data>. " ++ x.docPointer) := by
      simp only [isLine_append, hs, hm, h.docPointer, and_true, true_and]
      and_intros <;> exact isLine_ofList.mpr (by decide)
    split
    · exact gives_pure (lined_failed hmissing)
    · exact gives_pure (lined_failed hmissing)
    · refine gives_pure (lined_passIf _ ?_)
      simp only [isLine_append, hs, hm, isLine_found h, and_true, true_and]
      and_intros <;> exact isLine_ofList.mpr (by decide)

theorem lined_withClass (h : x.toPlace.Lined) {check : NamingClass → Run Outcome}
    (hc : ∀ c ∈ x.conventions.namingClasses, IsLine c.label → Lined d k (check c)) :
    Lined d k (withClass check x) := by
  unfold withClass
  split
  · exact gives_pure (lined_skipped _)
  · rename_i c hk
    exact hc c (classOf?_mem hk) (h.conventions.classOf? hk)

theorem lined_functionDefaultExport (h : x.toPlace.Lined) :
    Lined d k (functionDefaultExport.check x) := by
  refine gives_bind (gives_module x) fun m _ => gives_pure (lined_passIf _ ?_)
  simp only [isLine_append, h.fileName, h.docPointer, and_true]
  and_intros <;> exact isLine_ofList.mpr (by decide)

theorem lined_functionSingleExport (h : x.toPlace.Lined) :
    Lined d k (functionSingleExport.check x) := by
  refine gives_bind (gives_module x) fun m hm => gives_pure (lined_passIf _ ?_)
  have hnames : IsLine (", ".intercalate m.namedFunctions) :=
    isLine_intercalate (by decide) fun s hs =>
      Module.isLine_namedFunctions (Module.isTidy_of_parse hm) hs
  have hfronts : IsLine ("/".intercalate (x.conventions.namingClasses.map fun c =>
      String.ofList (dropEnd '.' c.front.toList))) := by
    refine isLine_intercalate (by decide) fun s hs => ?_
    obtain ⟨c, hc, rfl⟩ := List.mem_map.mp hs
    exact (h.conventions.classes c hc).1.of_subset (dropEnd_subset _ _)
  simp only [isLine_append, hnames, hfronts, h.docPointer, and_true]
  and_intros <;> exact isLine_ofList.mpr (by decide)

theorem lined_functionReturnType (h : x.toPlace.Lined) :
    Lined d k (functionReturnType.check x) := by
  refine lined_withClass h fun c _ hlabel => ?_
  refine gives_bind (gives_ofExcept _ _) fun marker hmarker => lined_marksResult h hlabel ?_
  unfold Conventions.resultMarker at hmarker
  split at hmarker
  · rename_i hl
    cases hmarker
    exact Conventions.Lined.lookup h.conventions.markers hl
  · cases hmarker

theorem lined_controllerDefaultExportIsFunction (h : x.toPlace.Lined) :
    Lined d k (controllerDefaultExportIsFunction.check x) := by
  refine gives_bind (gives_module x) fun m _ => ?_
  split
  · refine gives_pure (lined_failed ?_)
    simp only [isLine_append, h.fileName, h.docPointer, and_true]
    and_intros <;> exact isLine_ofList.mpr (by decide)
  · exact lined_exportsFunction h (by decide)

theorem lined_controllerReturnType (h : x.toPlace.Lined) :
    Lined d k (controllerReturnType.check x) := by
  unfold controllerReturnType
  dsimp only
  split
  · rename_i marker hm
    exact lined_marksResult h (by decide) (Conventions.Lined.lookup h.conventions.markers hm)
  · exact gives_fail _

/-! Routes. -/

theorem lined_apiImportsElysia (h : x.toPlace.Lined) : Lined d k (apiImportsElysia.check x) := by
  refine gives_bind (gives_module x) fun m _ => gives_pure (lined_passIf _ ?_)
  simp only [isLine_append, h.fileName, h.docPointer, and_true]
  and_intros <;> exact isLine_ofList.mpr (by decide)

theorem lined_apiDefaultExportIsElysia (h : x.toPlace.Lined) :
    Lined d k (apiDefaultExportIsElysia.check x) := by
  refine gives_bind (gives_module x) fun m _ => gives_pure (lined_passIf _ ?_)
  simp only [isLine_append, h.fileName, h.setting, h.docPointer, and_true]
  and_intros <;> exact isLine_ofList.mpr (by decide)

theorem isLine_routeFront? {m : Module} (h : m.IsTidy) {value : String}
    (hv : routeFront? (m.constructionsOf frameworkClass) = some (some value)) : IsLine value := by
  obtain ⟨c, hc, hv⟩ := List.exists_of_findSome?_eq_some hv
  obtain ⟨options, ho, hv⟩ := Option.bind_eq_some_iff.mp hv
  obtain ⟨front, back, rfl, -⟩ := List.lookup_eq_some_iff.mp hv
  exact Module.lined_options h (List.mem_filter.mp hc).1 ho (routeOption, some value) (by simp)
    value rfl

theorem lined_apiElysiaHasPrefix (h : x.toPlace.Lined) : Lined d k (apiElysiaHasPrefix.check x) := by
  refine gives_bind (gives_module x) fun m hm => ?_
  dsimp only
  split
  · exact gives_pure (lined_skipped _)
  · split
    · exact gives_pure lined_pass
    · rename_i value hv
      have hvalue := isLine_routeFront? (Module.isTidy_of_parse hm) hv
      refine gives_pure (lined_passIf _ ?_)
      simp only [isLine_append, hvalue, h.setting, h.fileName, h.docPointer, and_true]
      and_intros <;> exact isLine_ofList.mpr (by decide)
    · refine gives_pure (lined_failed ?_)
      simp only [isLine_append, h.setting, h.fileName, h.docPointer, and_true]
      and_intros <;> exact isLine_ofList.mpr (by decide)

theorem lined_apiImportsController (h : x.toPlace.Lined) :
    Lined d k (apiImportsController.check x) := by
  refine gives_bind (gives_module x) fun m _ => ?_
  dsimp only
  split
  · exact gives_pure lined_pass
  · refine gives_bind (gives_ofExcept _ _) fun doc hdoc => gives_pure (lined_failed ?_)
    simp only [isLine_append, h.setting, h.fileName, h.docPointer, h.conventions.docOf hdoc, and_true]
    and_intros <;> exact isLine_ofList.mpr (by decide)

/-! Databases. -/

theorem isLine_portalVariable? {c : Conventions} {text database : String}
    (h : portalVariable? c text = some database) : IsLine database ∧
      ∀ a, database.toList.head? = some a → ObjectType.isNameStart a = true := by
  obtain ⟨t, -, h⟩ := Option.bind_eq_some_iff.mp h
  obtain ⟨p, -, h⟩ := Option.bind_eq_some_iff.mp h
  exact ObjectType.isLine_typeofName? h

theorem isLine_portalProperty {c : Conventions} (h : c.Lined) : IsLine (portalProperty c) := by
  simp only [portalProperty, isLine_append, h.setting, true_and, and_true]
  decide

theorem lined_functionPortalDatabase (h : x.toPlace.Lined)
    (hk : ∀ c, k = .ok c → ∀ name ∈ c.names, IsLine name) :
    Lined d k (functionPortalDatabase.check x) := by
  unfold functionPortalDatabase
  dsimp only
  split
  · exact gives_pure (lined_skipped _)
  · rename_i database hd
    refine gives_bind gives_catalog fun c hc => ?_
    split
    · exact gives_pure lined_pass
    · split
      · exact gives_pure (lined_skipped _)
      · have hknown : IsLine (if c.names.isEmpty then "(none found)"
            else ", ".intercalate c.names) := by
          split
          · decide
          · exact isLine_intercalate (by decide) (hk c hc)
        refine gives_pure (lined_failed ?_)
        simp only [isLine_append, isLine_portalProperty h.conventions, hknown,
          (isLine_portalVariable? hd).1, h.docPointer, and_true, true_and]
        and_intros <;> exact isLine_ofList.mpr (by decide)

theorem lined_functionTestImportsTestingDb (h : x.toPlace.Lined) :
    Lined d k (functionTestImportsTestingDb.check x) := by
  refine gives_bind gives_read fun d' _ => gives_bind (gives_ofExcept _ _) fun text _ => ?_
  split
  · exact gives_pure (lined_skipped _)
  · split
    · exact gives_pure (lined_skipped _)
    · rename_i database hd
      obtain ⟨hdatabase, hstart⟩ := isLine_portalVariable? hd
      have hfactory : IsLine (testingFactoryName database (x.conventions.setting .databaseSuffix)) :=
        isLine_testingFactoryName hdatabase hstart (h.setting _)
      refine gives_bind (gives_record _ _ _) fun _ _ => ?_
      refine gives_bind (gives_module x) fun m _ => gives_pure (lined_passIf _ ?_)
      simp only [isLine_append, hfactory, hdatabase, h.setting, h.docPointer, and_true]
      and_intros <;> exact isLine_ofList.mpr (by decide)

theorem lined_controllerPortalExcludesFunctions (h : x.toPlace.Lined) :
    Lined d k (controllerPortalExcludesFunctions.check x) := by
  refine gives_bind (gives_module x) fun m hm => ?_
  dsimp only
  split
  · exact gives_pure (lined_skipped _)
  · split
    · exact gives_pure (lined_skipped _)
    · rename_i t _
      have hoffending : ∀ imported : List String, imported = (m.imports.filter fun i =>
          contains (functionSegment x.conventions).toList i.module.toList).flatMap (·.boundNames) →
            IsLine (", ".intercalate (t.names.filter imported.contains)) := by
        rintro _ rfl
        refine isLine_intercalate (by decide) fun name hn => ?_
        have hi := List.contains_iff_mem.mp (List.mem_filter.mp hn).2
        obtain ⟨i, hi, hn⟩ := List.mem_flatMap.mp hi
        exact Module.isLine_boundNames (Module.isTidy_of_parse hm) (List.mem_filter.mp hi).1 hn
      refine gives_pure (lined_passIf _ ?_)
      simp only [isLine_append, hoffending _ rfl, h.setting, h.docPointer, and_true, true_and]
      and_intros <;> exact isLine_ofList.mpr (by decide)

/-- The import that the rule on connection modules reports. -/
def reportedImport? (c : Conventions) (m : Module) : Option Import :=
  m.imports.find? fun i => isConnection c i && !isForTypes i

/-- The rule on connection modules reports an import on one line exactly if the import's module path
is on one. -/
theorem functionDbImportsTypeOnly_eq (h : x.toPlace.Lined) : ∃ message : Import → String,
    functionDbImportsTypeOnly.check x = (x.module >>= fun m =>
      match reportedImport? x.conventions m with
      | none => pure .pass
      | some i => pure (.failed (message i))) ∧
    ∀ m i, m.IsTidy → reportedImport? x.conventions m = some i →
      (IsLine (message i) ↔ IsLine i.module) := by
  refine ⟨_, rfl, fun m i hm hi => ?_⟩
  have hbound : ∀ name ∈ i.boundNames, IsLine name := fun name =>
    Module.isLine_boundNames hm (List.mem_of_find?_eq_some hi)
  have hnames : IsLine (", ".intercalate i.boundNames) := isLine_intercalate (by decide) hbound
  have htypes : IsLine (", type ".intercalate i.boundNames) :=
    isLine_intercalate (by decide) hbound
  constructor
  · intro hl
    exact (isLine_append.mp (isLine_append.mp (isLine_append.mp hl).1).1).2
  · intro hl
    simp only [isLine_append, hl, hnames, htypes, isLine_oneLine, h.docPointer, and_true]
    and_intros <;> exact isLine_ofList.mpr (by decide)

/-! Test files. -/

/-- The example of a test file takes more than one line. -/
theorem not_isLine_describeExample : ¬ IsLine describeExample := by
  decide +kernel

/-- Tests outside of all braces and tests without a wrapper are reported with the example. -/
theorem lined_judgeCalls_iff (calls : TestLayout.Calls) :
    (judgeCalls calls).Lined ↔ calls.tests = [] ∧ calls.describes ≠ [] := by
  unfold judgeCalls
  split
  · rename_i ht
    rw [lined_failed_iff, isLine_append]
    simp [ht, not_isLine_describeExample]
  · rename_i ht
    split
    · rename_i hd
      rw [lined_failed_iff, isLine_append]
      simp [hd, not_isLine_describeExample]
    · rename_i hd
      refine iff_of_true (lined_passIf _ ?_) ⟨not_not.mp ht, hd⟩
      simp only [isLine_append, isLine_toString, and_true]
      and_intros <;> exact isLine_ofList.mpr (by decide)

/-- Whether the layout of a file matters: it lies below the root of the sources and has types. -/
def isTypedSource (x : Context) : Bool :=
  (after? (dropEnd '/' (x.conventions.setting .sourceRoot).toList ++ ['/'])
    (x.relativePath?.getD "").toList).isSome &&
  typedSuffixes.contains (Path.parse (x.relativePath?.getD "")).suffix

/-- The rule on test files judges the calls of a typed source and skips all other files. -/
theorem exec_testDescribeWrapper (x : Context) (d : Volume) (s : RunState) :
    ∃ o, ((testDescribeWrapper.check x).exec d s).1 = .ok o ∧
      if isTypedSource x then o = judgeCalls (TestLayout.calls x.content)
      else ∃ reason, o = .skipped reason := by
  unfold testDescribeWrapper isTypedSource
  dsimp only
  split
  · rename_i hn
    refine ⟨_, rfl, ?_⟩
    rw [Option.isNone_iff_eq_none.mp hn]
    exact ⟨_, rfl⟩
  · rename_i hn
    split
    · rename_i ht
      refine ⟨_, rfl, ?_⟩
      rw [Bool.not_eq_true'] at ht
      rw [ht, Bool.and_false]
      exact ⟨_, rfl⟩
    · rename_i ht
      rw [Bool.not_eq_true, Option.isNone_eq_false_iff] at hn
      rw [Bool.not_eq_true', Bool.not_eq_false] at ht
      refine ⟨judgeCalls (TestLayout.calls x.content), ?_, ?_⟩
      · split <;> rfl
      · rw [hn, ht]
        rfl

end Rule

/-- Whether a file lacks the wrapper that is asked for around its tests. -/
def Context.LacksWrapper (x : Context) : Prop :=
  Rule.isTypedSource x = true ∧
    ((TestLayout.calls x.content).tests ≠ [] ∨ (TestLayout.calls x.content).describes = [])

/-- Whether the import that is reported has a module path that is broken into lines. -/
def Context.BreaksPath (x : Context) : Prop :=
  ∃ m i, Module.parse x.content x.file = .ok m ∧ Rule.reportedImport? x.conventions m = some i ∧
    ¬ IsLine i.module

namespace Rule

open Run Outcome

variable {x : Context} {d : Volume} {k : Except ScanError Catalog}

theorem lined_functionDbImportsTypeOnly (h : x.toPlace.Lined) (hb : ¬ x.BreaksPath) :
    Lined d k (functionDbImportsTypeOnly.check x) := by
  obtain ⟨message, he, hl⟩ := functionDbImportsTypeOnly_eq h
  rw [he]
  refine gives_bind (gives_module x) fun m hm => ?_
  split
  · exact gives_pure lined_pass
  · rename_i i hi
    have hmodule : IsLine i.module := by
      by_contra hn
      exact hb ⟨m, i, hm, hi, hn⟩
    exact gives_pure (lined_failed ((hl m i (Module.isTidy_of_parse hm) hi).mpr hmodule))

theorem lined_testDescribeWrapper (hb : ¬ x.LacksWrapper) :
    Lined d k (testDescribeWrapper.check x) := by
  intro s hs o t he
  refine ⟨?_, ?_⟩
  · have hknown := (plain_testDescribeWrapper x).steady.known (d := d) s
    rw [he] at hknown
    exact hknown.trans hs
  · obtain ⟨o', ho, hcases⟩ := exec_testDescribeWrapper x d s
    rw [he] at ho
    cases ho
    split at hcases
    · rename_i hsource
      obtain ⟨ht, hd⟩ := not_or.mp fun h => hb ⟨hsource, h⟩
      rw [hcases, lined_judgeCalls_iff]
      exact ⟨not_not.mp ht, hd⟩
    · obtain ⟨reason, rfl⟩ := hcases
      exact lined_skipped reason

/-- All rules report on one line, but for the two that quote an example and a module path. -/
theorem lined_check (h : x.toPlace.Lined) (hk : ∀ c, k = .ok c → ∀ name ∈ c.names, IsLine name)
    {r : Rule} (hr : r ∈ Registry.builtin.entries)
    (hi : r = functionDbImportsTypeOnly → ¬ x.BreaksPath)
    (ht : r = testDescribeWrapper → ¬ x.LacksWrapper) : Lined d k (r.check x) := by
  cases r, hr using builtin_cases with
  -- the function area
  | functionFileName => exact lined_functionFileName h
  | functionPathDepth => exact lined_functionPathDepth h
  | functionDefaultExport => exact lined_functionDefaultExport h
  | functionDefaultExportIsFunction => exact lined_exportsFunction h (by decide)
  | functionSingleExport => exact lined_functionSingleExport h
  | functionParameterCount => exact lined_withClass h fun c _ hl => lined_countsParameters h hl _
  | functionPortalParameter | functionArgsParameter =>
    exact lined_withClass h fun c _ hl => lined_marksParameter h hl _ _ _
  | functionReturnType => exact lined_functionReturnType h
  | functionPortalDatabase => exact lined_functionPortalDatabase h hk
  | functionDbImportsTypeOnly => exact lined_functionDbImportsTypeOnly h (hi rfl)
  | functionTestImportsTestingDb => exact lined_functionTestImportsTestingDb h
  -- the controller area
  | controllerFileName => exact lined_controllerFileName h
  | controllerDefaultExportIsFunction => exact lined_controllerDefaultExportIsFunction h
  | controllerParameterCount => exact lined_countsParameters h (by decide) _
  | controllerPortalParameter | controllerArgsParameter =>
    exact lined_marksParameter h (by decide) _ _ _
  | controllerReturnType => exact lined_controllerReturnType h
  | controllerPortalExcludesFunctions => exact lined_controllerPortalExcludesFunctions h
  -- the database area
  | databaseFileName => exact lined_databaseFileName h
  | databaseFileNameMatchesDirectory => exact lined_databaseFileNameMatchesDirectory h
  | databasePathDepth => exact lined_databasePathDepth h
  -- the area of routes
  | apiFileName => exact lined_apiFileName h
  | apiImportsElysia => exact lined_apiImportsElysia h
  | apiDefaultExportIsElysia => exact lined_apiDefaultExportIsElysia h
  | apiElysiaHasPrefix => exact lined_apiElysiaHasPrefix h
  | apiImportsController => exact lined_apiImportsController h
  -- all areas
  | noJavaScript => exact lined_noJavaScript h
  | noTypeScriptInRoot => exact lined_noTypeScriptInRoot h
  | testDescribeWrapper => exact lined_testDescribeWrapper (ht rfl)

/-- What the rule on connection modules says of a path that is broken into lines is broken, too. -/
theorem exec_functionDbImportsTypeOnly (h : x.toPlace.Lined) (hb : x.BreaksPath) (s : RunState) :
    ∃ o, ((functionDbImportsTypeOnly.check x).exec d s).1 = .ok o ∧ ¬ o.Lined := by
  obtain ⟨m, i, hm, hi, hn⟩ := hb
  obtain ⟨message, he, hl⟩ := functionDbImportsTypeOnly_eq h
  refine ⟨.failed (message i), ?_, ?_⟩
  · rw [he, Context.module, hm, ofExcept_ok_bind, hi]
    rfl
  · rw [lined_failed_iff, hl m i (Module.isTidy_of_parse hm) hi]
    exact hn

end Rule

end ConventionLint
