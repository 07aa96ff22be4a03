import Mathlib.Data.List.Nodup
import Mathlib.Data.List.Pairwise
import ConventionLint.Proofs.Tree
import ConventionLint.Proofs.Scan

/-! A run over a project reports on each file what every rule says of it when it is called alone. -/
namespace ConventionLint

open Run

variable {g : Registry} {d : Volume} {c : Conventions} {x : Context} {r : Rule} {y z : Diagnostic}

namespace Registry

/-- No two rules have one name. -/
def Named (g : Registry) : Prop := (g.entries.map (·.name)).Nodup

theorem named_builtin : builtin.Named := by
  unfold Named
  decide

theorem Named.eq_of_name (h : g.Named) {r r' : Rule} (hr : r ∈ g.entries) (hr' : r' ∈ g.entries)
    (hn : r.name = r'.name) : r = r' :=
  List.inj_on_of_nodup_map h hr hr' hn

theorem get_name (h : g.Named) (hr : r ∈ g.entries) : g.get r.name = .ok r := by
  have hf : g.entries.find? (fun s => s.name = r.name) = some r := by
    cases hs : g.entries.find? fun s => s.name = r.name with
    | none =>
      have hn := List.find?_eq_none.mp hs r hr
      simp at hn
    | some s =>
      have hn : s.name = r.name := by simpa using List.find?_some hs
      rw [h.eq_of_name (List.mem_of_find?_eq_some hs) hr hn]
  simp [get, hf]

/-- A rule that is called by its name gives its verdict. -/
theorem invoke_name (h : g.Named) (hr : r ∈ g.entries) :
    g.invoke d r.name x =
      match r.verdict d (.fresh x.directory x.conventions) x with
      | .error e => .error (.failure e)
      | .ok diagnostic => .ok (diagnostic.map (·.error)) := by
  unfold invoke
  rw [get_name h hr]
  rfl

theorem invoke_eq_some_iff (h : g.Named) (hr : r ∈ g.entries) {message : String} :
    g.invoke d r.name x = .ok (some message) ↔
      r.verdict d (.fresh x.directory x.conventions) x
        = .ok (some ⟨r.name, message, Rule.shownPath x⟩) := by
  rw [invoke_name h hr]
  constructor
  · intro hi
    cases hv : r.verdict d (.fresh x.directory x.conventions) x with
    | error e =>
      rw [hv] at hi
      cases hi
    | ok o =>
      rw [hv] at hi
      obtain ⟨y, rfl, rfl⟩ := Option.map_eq_some_iff.mp (Except.ok.inj hi)
      rw [← Rule.eq_of_verdict hv]
  · intro hv
    rw [hv]
    rfl

theorem invoke_eq_failure_iff (h : g.Named) (hr : r ∈ g.entries) {e : Failure} :
    g.invoke d r.name x = .error (.failure e) ↔
      r.verdict d (.fresh x.directory x.conventions) x = .error e := by
  rw [invoke_name h hr]
  constructor
  · intro hi
    split at hi
    · cases hi
      assumption
    · cases hi
  · intro hv
    rw [hv]

/-- The rules for a file have different names too. -/
theorem Named.select (h : g.Named) (p : Place) (names : Option (List String)) (pathOnly : Bool) :
    ((g.select p names pathOnly).map (·.name)).Nodup := by
  have hr : (g.rules.map (·.name)).Nodup :=
    ((List.mergeSort_perm _ _).map _).nodup_iff.mpr h
  exact hr.sublist (List.filter_sublist.map _)

end Registry

namespace Rule

variable {s : RunState} {rs : List Rule}

/-- Each rule has at most one diagnostic on a file. -/
theorem nodup_shares (h : (rs.map (·.name)).Nodup) :
    ((shares d s x rs).diagnostics.map (·.rule)).Nodup := by
  refine (((List.mergeSort_perm _ _).map _).nodup_iff).mpr ?_
  rw [List.map_flatMap]
  refine List.nodup_flatMap.mpr ⟨?_, (List.pairwise_map.mp h).imp ?_⟩
  · intro r _
    unfold share
    split
    · rename_i o _
      cases o <;> simp
    · simp
  · intro r r' hne name hr hr'
    obtain ⟨y, hy, rfl⟩ := List.mem_map.mp hr
    obtain ⟨z, hz, hyz⟩ := List.mem_map.mp hr'
    rw [rule_of_verdict (mem_share_diagnostics.mp hy),
      rule_of_verdict (mem_share_diagnostics.mp hz)] at hyz
    exact hne hyz.symm

/-- A rule is for files of the project only. -/
theorem exists_relativePath_of_governs {p : Place} (h : r.governs p = true) :
    ∃ shown, p.relativePath? = some shown := by
  cases hp : p.relativePath? with
  | some shown => exact ⟨shown, rfl⟩
  | none =>
    have ha : p.area? = none := by
      unfold Place.area?
      rw [hp]
      rfl
    unfold governs at h
    simp [hp, ha] at h

/-- The diagnostics on a file are in the order of the rules' names. -/
theorem pairwise_shares :
    (shares d s x rs).diagnostics.Pairwise fun a b => a.rule ≤ b.rule :=
  Text.pairwise_mergeSort_key Diagnostic.rule _

end Rule

namespace Lint

variable {root : Path} {pathOnly : Bool} {file file' : Path} {text : String}
  {directory : List String} {start finish : Data.Number}

theorem isNamed_of_mem_projectFiles (h : d.WellFormed) (hf : file ∈ projectFiles d directory) :
    file.IsNamed := by
  obtain ⟨parts, hp, -, rfl⟩ := mem_projectFiles.mp hf
  exact Path.isNamed_root (h.of_filesBelow hp).2.1

/-- A file that is shown by a path in the project leads to that path. -/
theorem of_relativePath?_contextOf {shown : String} (h : d.WellFormed) (hf : file.IsNamed)
    (hs : (contextOf root c d file text).relativePath? = some shown) :
    ∃ r, (∀ s ∈ r, Path.IsName s) ∧ d.resolve file = d.resolve root ++ r ∧
      shown = Path.render r := by
  obtain ⟨r, hr, hshown⟩ := hf.of_relative? hs
  refine ⟨r, fun s hs => ?_, hr, hshown⟩
  have hjoin : (d.workingDirectory.join file).parts = file.parts := by
    have hfile : file = ⟨.root, file.parts⟩ := by rw [← hf.anchor]
    rw [hfile, Path.join_root]
  have hresolve : d.resolve file = d.resolve root ++ r := hr
  have hnames : ∀ t ∈ d.resolve file, Path.IsName t :=
    h.straight.names_normalize fun t ht => Or.inr (hf.parts t (hjoin ▸ ht))
  rw [hresolve] at hnames
  exact hnames s (List.mem_append_right _ hs)

/-- No file that is shown by a path in the project leads anywhere else. -/
theorem resolve_of_shownPath {r : List String} (h : d.WellFormed) (hf : file.IsNamed)
    (hr : ∀ s ∈ r, Path.IsName s)
    (hs : Rule.shownPath (contextOf root c d file text) = Path.render r) :
    d.resolve file = d.resolve root ++ r := by
  unfold Rule.shownPath at hs
  cases hp : (contextOf root c d file text).relativePath? with
  | some shown =>
    obtain ⟨q, hq, hresolve, rfl⟩ := of_relativePath?_contextOf h hf hp
    have hq' : Path.render q = Path.render r := by
      simpa [hp, Path.render_ne_empty hq] using hs
    rw [hresolve, Path.render_injective hq hr hq']
  | none =>
    -- a file outside of the project is shown by its absolute path
    rw [hp] at hs
    have hfile : file.toString = Path.render r := hs
    have habsolute : file.toString.toList.head? = some '/' := by
      rw [← Path.isAbsolute_parse, hf.parse_toString, Path.isAbsolute, hf.anchor]
      rfl
    rw [hfile] at habsolute
    exact (Path.head?_render_ne hr habsolute).elim

/-- What is found on a file names the path by which the file is shown. -/
theorem file_of_mem_findingsOn (text : String)
    (hy : y ∈ (findingsOn g root c pathOnly d file).diagnostics) :
    y.file = Rule.shownPath (contextOf root c d file text) := by
  obtain ⟨text', -, r, -, hv⟩ := mem_findingsOn_diagnostics.mp hy
  rw [Rule.file_of_verdict hv]
  rfl

/-- What is found on a file tells where in the project it leads to. -/
theorem place_of_mem_findingsOn (h : d.WellFormed) (hf : file.IsNamed)
    (hy : y ∈ (findingsOn g root c pathOnly d file).diagnostics) :
    ∃ r, (∀ s ∈ r, Path.IsName s) ∧ d.resolve file = d.resolve root ++ r ∧
      y.file = Path.render r := by
  obtain ⟨text, -, rule, hr, hv⟩ := mem_findingsOn_diagnostics.mp hy
  obtain ⟨-, hg, -⟩ := Registry.mem_select.mp hr
  obtain ⟨shown, hs⟩ := Rule.exists_relativePath_of_governs hg
  obtain ⟨r, hn, hresolve, rfl⟩ := of_relativePath?_contextOf h hf hs
  refine ⟨r, hn, hresolve, ?_⟩
  rw [Rule.file_of_verdict hv]
  simp [Rule.shownPath, hs, Path.render_ne_empty hn]

/-- Diagnostics name one file exactly if they were found on files that lead to one place. -/
theorem file_eq_iff_resolve_eq (h : d.WellFormed) (hf : file.IsNamed) (hf' : file'.IsNamed)
    (hy : y ∈ (findingsOn g root c pathOnly d file).diagnostics)
    (hz : z ∈ (findingsOn g root c pathOnly d file').diagnostics) :
    y.file = z.file ↔ d.resolve file = d.resolve file' := by
  obtain ⟨r, hr, hresolve, hshown⟩ := place_of_mem_findingsOn h hf hy
  obtain ⟨q, hq, hresolve', hshown'⟩ := place_of_mem_findingsOn h hf' hz
  rw [hshown, hshown', hresolve, hresolve', List.append_cancel_left_eq]
  exact ⟨Path.render_injective hr hq, fun he => he ▸ rfl⟩

/-- A rule has a diagnostic on a file if it gives one when it is called alone. -/
theorem mem_findingsOn_iff_invoke {message : String} (hg : g.Named) (hr : r ∈ g.entries)
    (hp : pathOnly = true → r.needsContent = false) (ht : content pathOnly d file = .ok text) :
    ⟨r.name, message, Rule.shownPath (contextOf root c d file text)⟩ ∈
        (findingsOn g root c pathOnly d file).diagnostics ↔
      g.invoke d r.name (contextOf root c d file text) = .ok (some message) := by
  rw [Registry.invoke_eq_some_iff hg hr, mem_findingsOn_diagnostics]
  constructor
  · rintro ⟨text', ht', r', hr', hv⟩
    rw [ht] at ht'
    cases ht'
    have hrr : r = r' :=
      hg.eq_of_name hr (Registry.mem_select.mp hr').1 (Rule.rule_of_verdict hv)
    rw [hrr] at hv ⊢
    exact hv
  · intro hv
    refine ⟨text, ht, r, mem_rulesFor hr hp ?_, hv⟩
    change r.verdict d (.fresh root c) _ = _ at hv
    simp [hv]

/-- A rule that fails on a file has an entry and no diagnostic. -/
theorem findingsOn_of_failure {e : Failure} (hg : g.Named) (hr : r ∈ g.entries)
    (hp : pathOnly = true → r.needsContent = false) (ht : content pathOnly d file = .ok text)
    (hv : r.verdict d (.fresh root c) (contextOf root c d file text) = .error e) :
    r.entry (contextOf root c d file text) e ∈ (findingsOn g root c pathOnly d file).errors ∧
      ∀ y ∈ (findingsOn g root c pathOnly d file).diagnostics, y.rule ≠ r.name := by
  constructor
  · unfold findingsOn
    rw [ht]
    refine Rule.mem_shares_errors.mpr ⟨r, mem_rulesFor hr hp ?_, e, hv, rfl⟩
    simp [hv]
  · intro y hy hn
    obtain ⟨text', ht', r', hr', hv'⟩ := mem_findingsOn_diagnostics.mp hy
    rw [ht] at ht'
    cases ht'
    have hrr : r = r' := hg.eq_of_name hr (Registry.mem_select.mp hr').1
      (hn.symm.trans (Rule.rule_of_verdict hv'))
    rw [← hrr, hv] at hv'
    cases hv'

theorem nodup_findingsOn (h : g.Named) :
    ((findingsOn g root c pathOnly d file).diagnostics.map (·.rule)).Nodup := by
  unfold findingsOn
  split
  · exact List.nodup_nil
  · exact Rule.nodup_shares (h.select _ _ _)

/-- A rule has something to say of a file. -/
def Breaks (g : Registry) (root : Path) (c : Conventions) (pathOnly : Bool) (d : Volume) (file : Path)
    (name : String) : Prop :=
  ∃ y ∈ (findingsOn g root c pathOnly d file).diagnostics, y.rule = name

/-- No other file of a project leads to the same place. -/
def Alone (d : Volume) (directory : List String) (file : Path) : Prop :=
  ∀ f ∈ projectFiles d directory, d.resolve f = d.resolve file → f = file

theorem nodup_projectFiles (hd : d.WellFormed) : (projectFiles d directory).Nodup := by
  refine List.Nodup.map ?_ (hd.nodup_filesBelow.filter _)
  intro p q h
  exact List.append_cancel_left (Path.mk.inj h).2

/-- Without links all files of a project lead to different places. -/
theorem alone_of_links_nil (hd : d.WellFormed) (hl : d.links = [])
    (hf : file ∈ projectFiles d directory) : Alone d directory file := by
  intro f hfm he
  obtain ⟨parts, hp, -, rfl⟩ := mem_projectFiles.mp hf
  obtain ⟨parts', hp', -, rfl⟩ := mem_projectFiles.mp hfm
  rw [hd.resolve_filesBelow hl hp, hd.resolve_filesBelow hl hp'] at he
  rw [he]

/-- In a walk through a project each diagnostic is given once, unless a rule has something to say of
two files that lead to one place. -/
theorem nodup_report_iff (hg : g.Named) (hd : d.WellFormed) :
    ((report g start finish (gathered g root c pathOnly d
      (projectFiles d directory))).diagnostics.map fun y => (y.file, y.rule)).Nodup ↔
    ∀ f ∈ projectFiles d directory, ∀ f' ∈ projectFiles d directory, f ≠ f' →
      d.resolve f = d.resolve f' → ∀ name, Breaks g root c pathOnly d f name →
        ¬ Breaks g root c pathOnly d f' name := by
  refine (((List.mergeSort_perm _ _).map _).nodup_iff).trans ?_
  have hone : ∀ f, ((findingsOn g root c pathOnly d f).diagnostics.map
      fun y => (y.file, y.rule)).Nodup := by
    intro f
    refine List.Nodup.of_map Prod.snd ?_
    rw [List.map_map]
    exact nodup_findingsOn hg
  simp only [gathered, List.map_flatMap, List.nodup_flatMap, hone, implies_true, true_and]
  constructor
  · intro h f hf f' hf' hne hresolve name hbreaks hbreaks'
    have hsymm : Std.Symm (Function.onFun List.Disjoint fun f =>
        (findingsOn g root c pathOnly d f).diagnostics.map fun y => (y.file, y.rule)) :=
      ⟨fun _ _ => List.disjoint_symm⟩
    have hdisjoint := h.forall hf hf' hne
    obtain ⟨y, hy, rfl⟩ := hbreaks
    obtain ⟨z, hz, hrule⟩ := hbreaks'
    have hfile : y.file = z.file := (file_eq_iff_resolve_eq hd (isNamed_of_mem_projectFiles hd hf)
      (isNamed_of_mem_projectFiles hd hf') hy hz).mpr hresolve
    refine hdisjoint (List.mem_map_of_mem hy) ?_
    rw [hfile, ← hrule]
    exact List.mem_map_of_mem hz
  · intro h
    refine (nodup_projectFiles hd).pairwise_of_forall_ne ?_
    intro f hf f' hf' hne key hkey hkey'
    obtain ⟨y, hy, rfl⟩ := List.mem_map.mp hkey
    obtain ⟨z, hz, hyz⟩ := List.mem_map.mp hkey'
    obtain ⟨hfile, hrule⟩ := Prod.mk.inj hyz
    have hresolve := (file_eq_iff_resolve_eq hd (isNamed_of_mem_projectFiles hd hf)
      (isNamed_of_mem_projectFiles hd hf') hy hz).mp hfile.symm
    exact h f hf f' hf' hne hresolve y.rule ⟨y, hy, rfl⟩ ⟨z, hz, hrule⟩

theorem nodup_report_of_links_nil (hg : g.Named) (hd : d.WellFormed) (hl : d.links = []) :
    ((report g start finish (gathered g root c pathOnly d
      (projectFiles d directory))).diagnostics.map fun y => (y.file, y.rule)).Nodup :=
  (nodup_report_iff hg hd).mpr fun f hf _ hf' hne he =>
    (hne (alone_of_links_nil hd hl hf' f hf he)).elim

/-- What a report says of the path of a file was found there, if no other file leads to it. -/
theorem mem_report_iff (text : String) (hd : d.WellFormed) (hf : file ∈ projectFiles d directory)
    (ha : Alone d directory file) (hy : y.file = Rule.shownPath (contextOf root c d file text)) :
    y ∈ (report g start finish (gathered g root c pathOnly d
        (projectFiles d directory))).diagnostics ↔
      y ∈ (findingsOn g root c pathOnly d file).diagnostics := by
  rw [mem_report_diagnostics]
  constructor
  · rintro ⟨f, hfm, hm⟩
    obtain ⟨r, hr, hresolve, hshown⟩ :=
      place_of_mem_findingsOn hd (isNamed_of_mem_projectFiles hd hfm) hm
    have hplace := resolve_of_shownPath hd (isNamed_of_mem_projectFiles hd hf) hr
      (hy.symm.trans hshown)
    rw [← ha f hfm (hresolve.trans hplace.symm)]
    exact hm
  · intro hm
    exact ⟨file, hf, hm⟩

end Lint

theorem Disk.shownPath_contextOf {d : Disk} {directory parts : List String} {text : String}
    (h : d.WellFormed) (hp : parts ∈ d.filesBelow directory) :
    Rule.shownPath (Lint.contextOf ⟨.root, directory⟩ c d ⟨.root, directory ++ parts⟩ text)
      = Path.render parts := by
  have hnames : ∀ s ∈ parts, Path.IsName s :=
    fun s hs => names_filesBelow h hp s (List.mem_append_right _ hs)
  simp [Rule.shownPath, relativePath?_contextOf h hp, Path.render_ne_empty hnames]

/-- A project with a function that is no text and a test of it. -/
def brokenFunction : Disk where
  entries :=
    [(["p"], .directory), (["p", "src"], .directory), (["p", "src", "function"], .directory),
     (["p", "src", "function", "fx.a.test.ts"], .file []),
     (["p", "src", "function", "fx.a.ts"], .file [0xff])]

theorem visited_brokenFunction (name : String) (h : name ∈ ["fx.a.test.ts", "fx.a.ts"]) :
    ⟨.root, ["p"] ++ ["src", "function", name]⟩ ∈ Lint.projectFiles brokenFunction ["p"] := by
  refine Lint.mem_projectFiles.mpr ⟨_, Disk.mem_filesBelow.mpr ⟨by simp, ?_⟩, ?_, rfl⟩
  · simp only [List.mem_cons, List.not_mem_nil, or_false] at h
    rcases h with rfl | rfl
    · exact ⟨[], by decide⟩
    · exact ⟨[0xff], by decide⟩
  · revert name
    decide

end ConventionLint
