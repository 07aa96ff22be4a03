import ConventionLint.Proofs.ImportReaders

/-! Imports are read back from the lines they are written on. The grammar takes the lines for a
program, and each part of a statement is found again where it stands in the text. -/
namespace ConventionLint

open Source

/-! The text of a program. -/

namespace Source.Reader

open Printed

variable {u v gap : List Char}

theorem refuses_pageComment (hg : IsGaps gap) (hu : AtToken u)
    (h : (["<!--", "-->"].any fun t => t.toList.isPrefixOf u) = false) :
    Refuses pageComment (gap ++ u) := by
  constructor
  intro pos found
  rw [pageComment, ahead_bind _ hg hu, guard_bind_of_neg (by rw [h]; exact Bool.false_ne_true)]
  rfl

theorem refuses_interpreterLine (hu : AtToken u) (h : "#!".toList.isPrefixOf u = false) :
    Refuses interpreterLine u :=
  Refuses.node ((refuses_lit isGaps_nil hu h).bind _) isGaps_nil hu

/-- What the lines of a program are read with. -/
def line (g : Phrases) : Reader Unit := pageComment <|> g .statement

theorem refuses_line_end (d : Dialect) (n : Nat) (hg : IsGaps gap) :
    Refuses (line (phrases d (n + 1))) gap := by
  have hnil : AtToken [] := rfl
  have hcomment : Refuses pageComment (gap ++ []) := refuses_pageComment hg hnil rfl
  have hstatement : Refuses (phrases d (n + 1) .statement) (gap ++ []) := by
    constructor
    intro pos found
    change statement (phrases d n) _ = _
    rw [statement, aheadChar_bind _ hg hnil]
    rfl
  rw [List.append_nil] at hcomment hstatement
  exact hcomment.orElse hstatement

theorem takes_line (d : Dialect) (n : Nat) (i : ImportLine) (hg : IsGaps gap) (hv : EndsLine v) :
    Takes (line (phrases d (n + 1))) (i.printed gap) v := by
  have hstatement : Takes (phrases d (n + 1) .statement) (i.printed gap) v :=
    takes_statement (phrases d n) i hg hv
  refine hstatement.orElse_right ?_
  obtain ⟨u, hu⟩ := text_eq_cons i
  rw [ImportLine.text_printed, hu, List.append_assoc]
  exact refuses_pageComment hg rfl rfl

end Source.Reader

namespace ImportLine

open Source.Reader Printed

variable {v : List Char}

/-- The lines of a program, each but the first with the line break before it. -/
def statements : List ImportLine → List Printed
  | [] => []
  | i :: rest => i.printed [] :: rest.map fun j => j.printed ['\n']

theorem endsLine_next (i : ImportLine) (v : List Char) : EndsLine ((i.printed ['\n']).text ++ v) := by
  obtain ⟨u, hu⟩ := text_eq_cons i
  rw [text_printed, hu, List.append_assoc, List.append_assoc]
  exact .next _

theorem takesEach_statements (d : Dialect) (n : Nat) (lines : List ImportLine) (hg : IsGaps v)
    (hv : EndsLine v) : TakesEach (line (phrases d (n + 1))) (statements lines) v := by
  have hend := refuses_line_end d n hg
  cases lines with
  | nil => exact hend
  | cons i rest =>
    have hfollows : ∀ a ∈ rest.map (fun j => j.printed ['\n']), ∀ u, EndsLine u →
        EndsLine (a.text ++ u) := by
      intro a ha u _
      obtain ⟨j, -, rfl⟩ := List.mem_map.mp ha
      exact endsLine_next j u
    -- Only the first line has no line break before it, so the others are taken together.
    refine ⟨?_, takes_line d n i isGaps_nil (follows_concat hfollows hv), ?_⟩
    · obtain ⟨u, hu⟩ := text_eq_cons i
      simp [hu]
    · refine takesEach_of_follows hend hv ?_ ?_ hfollows
      · intro a ha
        obtain ⟨j, -, rfl⟩ := List.mem_map.mp ha
        simp
      · intro a ha u hu
        obtain ⟨j, -, rfl⟩ := List.mem_map.mp ha
        exact takes_line d n j rfl hu

/-- The text of the lines is empty or starts with the first word of the first line. -/
theorem text_statements_cases (lines : List ImportLine) : lines = [] ∨
    ∃ u, (concat (statements lines)).text = "import".toList ++ u := by
  cases lines with
  | nil => exact .inl rfl
  | cons i rest =>
    obtain ⟨u, hu⟩ := text_eq_cons i
    refine .inr ⟨' ' :: u ++ (concat (rest.map fun j => j.printed ['\n'])).text, ?_⟩
    rw [statements, concat, text_append, text_printed, hu]
    simp

/-- The gaps before and after the lines: without a line the text has only a start. -/
def margins (lines : List ImportLine) (final : Bool) : List Char × List Char :=
  let gap := if final then ['\n'] else []
  if lines.isEmpty then (gap, []) else ([], gap)

/-- A whole program. -/
def program (lines : List ImportLine) (final : Bool) : Printed :=
  .node (margins lines final).1 .program none
    (concat (statements lines) ++ plain (margins lines final).2)

theorem text_program (lines : List ImportLine) (final : Bool) :
    (program lines final).text = source lines final := by
  cases lines with
  | nil => cases final <;> rfl
  | cons i rest =>
    simp [program, margins, statements, source, concat, text_concat, intercalate_cons_eq_flatten,
      Function.comp_def]

theorem isGaps_margins (lines : List ImportLine) (final : Bool) :
    IsGaps (margins lines final).1 ∧ IsGaps (margins lines final).2 := by
  cases lines <;> cases final <;> exact ⟨rfl, rfl⟩

theorem endsLine_margins (lines : List ImportLine) (final : Bool) :
    EndsLine (margins lines final).2 := by
  cases lines with
  | nil => exact .nil
  | cons i rest =>
    cases final with
    | true => exact .final
    | false => exact .nil

/-- The lines start with a token, and with no line that names an interpreter. -/
theorem start_program (lines : List ImportLine) (final : Bool) :
    AtToken ((concat (statements lines)).text ++ (margins lines final).2) ∧
      "#!".toList.isPrefixOf ((concat (statements lines)).text ++ (margins lines final).2) = false := by
  rcases text_statements_cases lines with rfl | ⟨u, hu⟩
  · exact ⟨rfl, rfl⟩
  · rw [hu, List.append_assoc]
    have hword : IsWord "import".toList := by decide
    exact ⟨hword.atToken_append _, isPrefixOf_word hword (by decide) _⟩

theorem takes_program (d : Dialect) (n : Nat) (lines : List ImportLine) (final : Bool) :
    Takes (Reader.program (phrases d (n + 1))) (program lines final) [] := by
  obtain ⟨hlead, htrail⟩ := isGaps_margins lines final
  obtain ⟨hat, hline⟩ := start_program lines final
  have hnil : AtToken [] := rfl
  have hguard : Takes (do guard ((← here).isEmpty)) (plain []) [] := ⟨fun _ _ => rfl⟩
  have hgaps : Takes gaps (plain (margins lines final).2) [] := takes_gaps htrail hnil
  have hmany : Takes (many (line (phrases d (n + 1)))) (concat (statements lines))
      ((plain (margins lines final).2).text ++ []) := by
    rw [List.append_nil]
    exact (takesEach_statements d n lines htrail (endsLine_margins lines final)).many
  have hinterpreter : Takes (maybe interpreterLine) (plain [])
      ((concat (statements lines) ++ plain (margins lines final).2).text ++ []) := by
    rw [List.append_nil]
    exact takes_maybe_nil (refuses_interpreterLine hat hline)
  refine (hinterpreter.nil_bind (hmany.bind (hgaps.bind_nil hguard))).node hlead ?_
  rw [List.append_nil]
  exact hat

/-- The tree of the lines. -/
def root (lines : List ImportLine) (final : Bool) : Node :=
  .mk .program none ⟨(margins lines final).1.length, (source lines final).length⟩
    ((concat (statements lines)).nodes (margins lines final).1.length)

theorem nodes_program (lines : List ImportLine) (final : Bool) :
    (program lines final).nodes 0 = [root lines final] := by
  have hlength := congrArg List.length (text_program lines final)
  rw [program, text_node, List.length_append] at hlength
  rw [program, nodes_node, root, Nat.zero_add, hlength, nodes_append, nodes_plain, List.append_nil]

theorem parse_source (d : Dialect) (lines : List ImportLine) (final : Bool) :
    Source.parse d (source lines final) = some (root lines final) := by
  have h := (takes_program d (8 * (source lines final).length + 63) lines final).run_eq 0 []
  rw [List.append_nil, text_program, nodes_program] at h
  rw [Source.parse, h]
  rfl

end ImportLine

/-! Where phrases stand in a text. -/

namespace Source.Printed

variable {a b : Printed} {text gap : List Char} {k : Nat} {kind : Kind} {r : Option Role}

/-- A phrase stands in a text from a position on. -/
def StandsIn (a : Printed) (text : List Char) (k : Nat) : Prop := a.text <+: text.drop k

theorem StandsIn.left (h : (a ++ b).StandsIn text k) : a.StandsIn text k :=
  (List.prefix_append _ _).trans h

theorem StandsIn.right (h : (a ++ b).StandsIn text k) : b.StandsIn text (k + a.text.length) := by
  obtain ⟨rest, hrest⟩ := h
  refine ⟨rest, ?_⟩
  rw [← List.drop_drop, ← hrest, text_append, List.append_assoc, List.drop_left]

theorem StandsIn.inside (h : (node gap kind r a).StandsIn text k) :
    a.StandsIn text (k + gap.length) := by
  obtain ⟨rest, hrest⟩ := h
  refine ⟨rest, ?_⟩
  rw [← List.drop_drop, ← hrest, text_node, List.append_assoc, List.drop_left]

theorem StandsIn.cut_eq (h : a.StandsIn text k) : Span.cut ⟨k, k + a.text.length⟩ text = a.text := by
  rw [Span.cut, Nat.add_sub_cancel_left]
  exact (List.prefix_iff_eq_take.mp h).symm

end Source.Printed

/-! Each part is found again. -/

variable {m : Module} {gap : List Char} {k : Nat}

theorem textOf_node {kind : Kind} {r : Option Role} {a : Printed}
    (h : (Printed.node gap kind r a).StandsIn m.text k) (cs : List Node) :
    m.textOf (.mk kind r ⟨k + gap.length, k + gap.length + a.text.length⟩ cs) = String.ofList a.text :=
  congrArg String.ofList h.inside.cut_eq

theorem Identifier.name_ne_empty (n : Identifier) : n.name ≠ "" := by
  intro h
  obtain ⟨c, hc, -⟩ := n.ascii.start
  rw [h] at hc
  cases hc

theorem Identifier.textOf_eq {n : Identifier} {r : Option Role}
    (h : (n.printed gap r).StandsIn m.text k) :
    ((n.printed gap r).nodes k).map m.textOf = [n.name] := by
  have htext := textOf_node h []
  rw [Printed.text_plain, chars, String.ofList_toList] at htext
  exact congrArg (fun t => [t]) htext

/-- What is asked of the parts of a statement: the texts of those that play a part. -/
def Module.playing (m : Module) (r : Role) (nodes : List Node) : Option String :=
  (nodes.find? fun n => n.role = some r).map m.textOf

def hasTypeMark (nodes : List Node) : Bool := nodes.any fun n => n.kind? = some (.token "type")

theorem Module.importedName_eq (m : Module) (n : Node) :
    m.importedName n = ⟨(m.playing .name n.children).getD "", hasTypeMark n.children,
      m.playing .asName n.children⟩ := rfl

theorem Module.playing_token (m : Module) (r : Role) (t : String) (a : Printed) :
    m.playing r ((Printed.token gap t ++ a).nodes k)
      = m.playing r (a.nodes (k + (Printed.token gap t).text.length)) := by
  simp [playing, Printed.token, Node.role]

theorem Identifier.playing_eq {n : Identifier} {r : Role}
    (h : (n.printed gap (some r)).StandsIn m.text k) (rest : List Node) (t : Role) :
    m.playing t ((n.printed gap (some r)).nodes k ++ rest)
      = if r = t then some n.name else m.playing t rest := by
  have htext := List.singleton_inj.mp (textOf_eq h)
  by_cases hr : r = t
  · rw [if_pos hr, ← htext]
    simp [Module.playing, printed, Node.role, hr]
  · simp [Module.playing, printed, Node.role, hr]

/-- The record of an imported name. -/
def Specifier.toName (s : Specifier) : ImportedName where
  name := s.name.name
  typeOnly := s.typeOnly
  asName := s.asName.map Identifier.name

theorem Specifier.playing_renamed {n : Option Identifier} (h : (renamed n).StandsIn m.text k) :
    m.playing .asName ((renamed n).nodes k) = n.map Identifier.name := by
  cases n with
  | none => rfl
  | some n =>
    have hname := Identifier.playing_eq h.right [] .asName
    rw [List.append_nil] at hname
    rw [renamed, Module.playing_token, hname]
    rfl

theorem Specifier.playing_named {s : Specifier} (h : (s.named gap).StandsIn m.text k) :
    m.playing .name ((s.named gap).nodes k) = some s.name.name ∧
      m.playing .asName ((s.named gap).nodes k) = s.asName.map Identifier.name := by
  rw [named, Printed.nodes_append, Identifier.playing_eq h.left, Identifier.playing_eq h.left]
  exact ⟨rfl, playing_renamed h.right⟩

theorem Specifier.hasTypeMark_named (s : Specifier) : hasTypeMark ((s.named gap).nodes k) = false := by
  cases ha : s.asName <;>
    simp [hasTypeMark, named, renamed, ha, Identifier.printed, Printed.token, Node.kind?]

theorem Specifier.importedName_eq {s : Specifier} (h : (s.printed gap).StandsIn m.text k) :
    ((s.printed gap).nodes k).map m.importedName = [s.toName] := by
  have hin := h.inside
  unfold printed at h ⊢
  rw [Printed.nodes_node, List.map_singleton, Module.importedName_eq, toName]
  unfold Node.children
  cases ht : s.typeOnly with
  | false =>
    rw [ht] at hin
    have hnamed := playing_named hin
    rw [if_neg Bool.false_ne_true, hnamed.1, hnamed.2, hasTypeMark_named]
    rfl
  | true =>
    rw [ht] at hin
    have hnamed := playing_named hin.right
    rw [if_pos rfl, Module.playing_token, Module.playing_token, hnamed.1, hnamed.2]
    rfl

/-! Bindings are found again. -/

namespace Module

variable (m : Module)

/-- The nodes in the import clauses among some nodes. -/
def partsIn (nodes : List Node) : List Node :=
  ((nodes.filter Node.isNamed).filter fun n => n.kind? = some .importClause).flatMap Node.namedChildren

def defaultIn (parts : List Node) : Option String :=
  ((parts.filter fun n => n.kind? = some .identifier).map m.textOf).getLast?

def namespaceIn (parts : List Node) : Option String :=
  m.defaultIn ((parts.filter fun n => n.kind? = some .namespaceImport).flatMap Node.namedChildren)

def namesIn (parts : List Node) : List ImportedName :=
  (((parts.filter fun n => n.kind? = some .namedImports).flatMap Node.namedChildren).filter
    fun n => n.kind? = some .importSpecifier).map m.importedName

theorem importOf_eq (n : Node) : m.importOf n =
    { module := String.ofList (Text.trimBoth (fun c => c = '\'' || c = '"' || c = '`')
        (((m.playing .module n.children).map String.toList).getD []))
      text := m.textOf n
      typeOnly := hasTypeMark n.children
      defaultName := m.defaultIn (partsIn n.children)
      namespaceName := m.namespaceIn (partsIn n.children)
      names := m.namesIn (partsIn n.children) } := by
  have hmodule : (n.child? .module).map (fun s => s.span.cut m.text)
      = (m.playing .module n.children).map String.toList := by
    simp [playing, Node.child?, textOf, Function.comp_def]
  rw [importOf, hmodule, defaultIn, namespaceIn, defaultIn, List.getLast?_map, List.getLast?_map]
  rfl

theorem partsIn_append (a b : List Node) : partsIn (a ++ b) = partsIn a ++ partsIn b := by
  simp [partsIn]

end Module

/-- The name of a namespace. -/
def Bindings.namespaceName : Bindings → Option String
  | all n => some n.name
  | names _ _ => none

/-- The records of the names in braces. -/
def Bindings.toNames : Bindings → List ImportedName
  | all _ => []
  | names _ specifiers => specifiers.map Specifier.toName

/-- The names that bindings bind. -/
def Bindings.localNames : Bindings → List Identifier
  | all n => [n]
  | names _ specifiers => specifiers.map fun s => s.asName.getD s.name

theorem Identifier.filter_name (n : Option Identifier) :
    (n.map Identifier.name).filter (· ≠ "") = n.map Identifier.name := by
  cases n with
  | none => rfl
  | some n => simp [n.name_ne_empty]

theorem Specifier.localName_toName (s : Specifier) :
    s.toName.localName = (s.asName.getD s.name).name := by
  rw [ImportedName.localName, toName, Identifier.filter_name]
  cases s.asName <;> rfl

theorem Bindings.boundNames_eq (b : Bindings) :
    b.toNames.map ImportedName.localName ++ (b.namespaceName.filter (· ≠ "")).toList
      = b.localNames.map Identifier.name := by
  cases b with
  | all n => simp [toNames, namespaceName, localNames, n.name_ne_empty]
  | names padding specifiers =>
    simp [toNames, namespaceName, localNames, Specifier.localName_toName]

theorem Identifier.defaultIn_eq {n : Identifier} {r : Option Role}
    (h : (n.printed gap r).StandsIn m.text k) :
    m.defaultIn ((n.printed gap r).nodes k) = some n.name := by
  have hall : ((n.printed gap r).nodes k).filter (fun x => x.kind? = some .identifier)
      = (n.printed gap r).nodes k := rfl
  rw [Module.defaultIn, hall, textOf_eq h]
  rfl

/-- The specifiers among the nodes in braces. -/
def Module.specifiersIn (m : Module) (nodes : List Node) : List ImportedName :=
  ((nodes.filter Node.isNamed).filter fun n => n.kind? = some .importSpecifier).map m.importedName

theorem Module.specifiersIn_append (a b : List Node) :
    m.specifiersIn (a ++ b) = m.specifiersIn a ++ m.specifiersIn b := by
  simp [specifiersIn]

theorem Module.specifiersIn_token (t : String) :
    m.specifiersIn ((Printed.token gap t).nodes k) = [] := rfl

theorem Specifier.specifiersIn_eq {s : Specifier} (h : (s.printed gap).StandsIn m.text k) :
    m.specifiersIn ((s.printed gap).nodes k) = [s.toName] := importedName_eq h

theorem Specifier.specifiersIn_next {rest : List Specifier}
    (h : (Printed.concat (rest.map next)).StandsIn m.text k) :
    m.specifiersIn ((Printed.concat (rest.map next)).nodes k) = rest.map toName := by
  induction rest generalizing k with
  | nil => rfl
  | cons s rest ih =>
    have hnext : m.specifiersIn (s.next.nodes k) = [s.toName] := by
      rw [next, Printed.nodes_append, Module.specifiersIn_append, Module.specifiersIn_token,
        specifiersIn_eq h.left.right]
      rfl
    rw [List.map_cons, Printed.concat, Printed.nodes_append, Module.specifiersIn_append, hnext,
      ih h.right]
    rfl

theorem Bindings.specifiersIn_inBraces {padding : List Char} {specifiers : List Specifier}
    (h : (inBraces padding specifiers).StandsIn m.text k) :
    m.specifiersIn ((inBraces padding specifiers).nodes k) = specifiers.map Specifier.toName := by
  cases specifiers with
  | nil => rfl
  | cons s rest =>
    rw [inBraces, Printed.nodes_append, Printed.nodes_append, Module.specifiersIn_append,
      Module.specifiersIn_append, Specifier.specifiersIn_eq h.left.left,
      Specifier.specifiersIn_next h.left.right, Module.specifiersIn_token, List.append_nil]
    rfl

theorem Module.namespaceIn_node (span : Span) (nodes : List Node) :
    m.namespaceIn [.mk .namespaceImport none span nodes] = m.defaultIn (nodes.filter Node.isNamed) := by
  simp [namespaceIn, Node.kind?, Node.namedChildren, Node.children]

theorem Module.namesIn_node (span : Span) (nodes : List Node) :
    m.namesIn [.mk .namedImports none span nodes] = m.specifiersIn nodes := by
  simp [namesIn, specifiersIn, Node.kind?, Node.namedChildren, Node.children]

/-- What bindings leave among the parts of a clause. -/
structure Bindings.Found (m : Module) (b : Bindings) (parts : List Node) : Prop where
  named : parts.filter Node.isNamed = parts
  identifiers : (parts.filter fun n => n.kind? = some .identifier) = []
  namespaceName : m.namespaceIn parts = b.namespaceName
  names : m.namesIn parts = b.toNames

theorem Bindings.found {b : Bindings} (h : (b.printed gap).StandsIn m.text k) :
    b.Found m ((b.printed gap).nodes k) := by
  cases b with
  | all n =>
    have hname := Identifier.defaultIn_eq h.inside.right.right
    refine ⟨rfl, rfl, ?_, rfl⟩
    rw [printed, Printed.nodes_node, Module.namespaceIn_node]
    exact hname
  | names padding specifiers =>
    have hnames := specifiersIn_inBraces h.inside.right
    refine ⟨rfl, rfl, rfl, ?_⟩
    rw [printed, Printed.nodes_node, Module.namesIn_node, Printed.nodes_append,
      Module.specifiersIn_append, hnames]
    rfl

/-! Statements are found again. -/

theorem Text.trimBoth_quoted {p : Char → Bool} {c : Char} {u : List Char} (hc : p c = true)
    (hu : ∀ d ∈ u, p d = false) : trimBoth p (c :: (u ++ [c])) = u := by
  have hkeep : ∀ {l : List Char}, (∀ d ∈ l, p d = false) → l.dropWhile p = l := by
    intro l hl
    cases l with
    | nil => rfl
    | cons d l => simp [hl d (List.mem_cons_self ..)]
  have hfront : (c :: (u ++ [c])).dropWhile p = (if u = [] then [] else u ++ [c]) := by
    cases u with
    | nil => simp [hc]
    | cons d u => simp [hc, hu d (List.mem_cons_self ..)]
  rw [trimBoth, hfront]
  by_cases hne : u = []
  · rw [if_pos hne, hne]
    rfl
  · have hback := hkeep fun d hd => hu d (List.mem_reverse.mp hd)
    rw [if_neg hne, List.reverse_append, List.reverse_singleton, List.singleton_append,
      List.dropWhile_cons_of_pos hc, hback, List.reverse_reverse]

theorem Quote.playing_eq {q : Quote} {u : List Char} {r : Role}
    (h : (q.printed gap (some r) u).StandsIn m.text k) (rest : List Node) :
    m.playing r ((q.printed gap (some r) u).nodes k ++ rest)
      = some (String.ofList (q.char :: (u ++ [q.char]))) := by
  have htext := textOf_node h
  have hquoted := q.text_printed [] none u
  rw [List.nil_append, printed, Printed.text_node, List.nil_append] at hquoted
  rw [hquoted] at htext
  simp only [Module.playing, printed, Printed.nodes_node, List.cons_append, Node.role,
    decide_true, List.find?_cons_of_pos, Option.map_some, hquoted, htext]

namespace ImportLine

variable {i : ImportLine}

/-- The record of a statement. -/
def toImport (i : ImportLine) : Import where
  module := String.ofList i.module
  text := String.ofList i.text
  typeOnly := i.typeOnly
  defaultName := i.defaultName.map Identifier.name
  namespaceName := i.bindings.bind Bindings.namespaceName
  names := (i.bindings.map Bindings.toNames).getD []

/-- The names of a clause are those among its parts. -/
structure FoundClause (m : Module) (n : Option Identifier) (b : Option Bindings) (parts : List Node) :
    Prop where
  defaultName : m.defaultIn parts = n.map Identifier.name
  namespaceName : m.namespaceIn parts = b.bind Bindings.namespaceName
  names : m.namesIn parts = (b.map Bindings.toNames).getD []

theorem foundClause_bindings {b : Bindings} {parts : List Node} (h : b.Found m parts) :
    FoundClause m none (some b) parts := by
  refine ⟨?_, h.namespaceName, h.names⟩
  rw [Module.defaultIn, h.identifiers]
  rfl

theorem foundClause_default {n : Identifier} (h : (n.printed gap none).StandsIn m.text k) :
    FoundClause m (some n) none ((n.printed gap none).nodes k) :=
  ⟨Identifier.defaultIn_eq h, rfl, rfl⟩

theorem foundClause_both {n : Identifier} {b : Bindings} {parts : List Node}
    (h : (n.printed gap none).StandsIn m.text k) (hb : b.Found m parts) :
    FoundClause m (some n) (some b) ((n.printed gap none).nodes k ++ parts) := by
  have hdefault := Identifier.defaultIn_eq h
  refine ⟨?_, hb.namespaceName, hb.names⟩
  rw [Module.defaultIn, List.filter_append, hb.identifiers, List.append_nil]
  exact hdefault

theorem foundClause {n : Option Identifier} {b : Option Bindings} {c : Printed}
    (hc : clauseOf n b = some c) (h : c.StandsIn m.text k) :
    FoundClause m n b ((c.nodes k).filter Node.isNamed) := by
  cases n with
  | none =>
    obtain ⟨b, rfl, rfl⟩ := Option.map_eq_some_iff.mp hc
    have hb := Bindings.found h
    rw [hb.named]
    exact foundClause_bindings hb
  | some n =>
    cases hc
    cases b with
    | none => exact foundClause_default h.left
    | some b =>
      have hb := Bindings.found h.right.right
      have hparts := foundClause_both h.left hb
      rw [← hb.named] at hparts
      exact hparts

/-- What is found in a statement: its module, whether it is marked, and its names. -/
structure FoundIn (m : Module) (i : ImportLine) (marked : Bool) (nodes : List Node) : Prop where
  module : ∀ rest, m.playing .module (nodes ++ rest)
    = some (String.ofList (i.quote.char :: (i.module ++ [i.quote.char])))
  marked : hasTypeMark nodes = marked
  clause : FoundClause m i.defaultName i.bindings (Module.partsIn nodes)

theorem foundIn_body (h : i.body.StandsIn m.text k) : FoundIn m i false (i.body.nodes k) := by
  unfold body at h ⊢
  cases hc : clauseOf i.defaultName i.bindings with
  | none =>
    rw [hc] at h
    obtain ⟨hn, hb⟩ : i.defaultName = none ∧ i.bindings = none := by
      cases hn : i.defaultName with
      | some n => rw [hn] at hc; cases hc
      | none => rw [hn] at hc; exact ⟨rfl, Option.map_eq_none_iff.mp hc⟩
    refine ⟨fun rest => Quote.playing_eq h rest, rfl, ?_⟩
    rw [hn, hb]
    exact ⟨rfl, rfl, rfl⟩
  | some c =>
    rw [hc] at h
    have hclause := foundClause hc h.left.inside
    refine ⟨fun rest => ?_, rfl, ?_⟩
    · exact Quote.playing_eq h.right.right rest
    · rw [← List.append_nil (List.filter _ _)] at hclause
      exact hclause

theorem FoundIn.token_append {marked : Bool} {nodes : List Node} (h : FoundIn m i marked nodes)
    (gap : List Char) (k : Nat) (t : String) :
    FoundIn m i (decide (t = "type") || marked) ((Printed.token gap t).nodes k ++ nodes) := by
  refine ⟨fun rest => h.module rest, ?_, h.clause⟩
  rw [← h.marked]
  simp [hasTypeMark, Printed.token, Node.kind?]

theorem FoundIn.append_ending {marked : Bool} {nodes : List Node} (h : FoundIn m i marked nodes)
    (k : Nat) : FoundIn m i marked (nodes ++ i.ending.nodes k) := by
  have hmark : hasTypeMark (i.ending.nodes k) = false := by
    unfold ending
    cases i.semicolon <;> rfl
  have hparts : Module.partsIn (i.ending.nodes k) = [] := by
    unfold ending
    cases i.semicolon <;> rfl
  refine ⟨fun rest => ?_, ?_, ?_⟩
  · rw [List.append_assoc]
    exact h.module _
  · rw [hasTypeMark, List.any_append, ← hasTypeMark, ← hasTypeMark, hmark, h.marked, Bool.or_false]
  · rw [Module.partsIn_append, hparts, List.append_nil]
    exact h.clause

theorem foundIn_typed (h : i.typed.StandsIn m.text k) : FoundIn m i i.typeOnly (i.typed.nodes k) := by
  unfold typed at h ⊢
  cases ht : i.typeOnly with
  | false =>
    rw [ht] at h
    exact foundIn_body h
  | true =>
    rw [ht] at h
    exact (foundIn_body h.right).token_append _ _ "type"

theorem foundIn_statement
    (h : (Printed.token [] "import" ++ (i.typed ++ i.ending)).StandsIn m.text k) :
    FoundIn m i i.typeOnly ((Printed.token [] "import" ++ (i.typed ++ i.ending)).nodes k) :=
  ((foundIn_typed h.right.left).append_ending _).token_append [] k "import"

theorem trimBoth_module (i : ImportLine) :
    Text.trimBoth (fun c => c = '\'' || c = '"' || c = '`')
      (i.quote.char :: (i.module ++ [i.quote.char])) = i.module := by
  refine Text.trimBoth_quoted ?_ fun c hc => ?_
  · cases i.quote <;> rfl
  · have hquotes := not_mem_of_isUnquoted i.unquoted hc
    simp only [List.mem_cons, List.not_mem_nil, or_false, not_or] at hquotes
    simp [hquotes]

theorem importOf_eq (h : (i.printed gap).StandsIn m.text k) :
    ((i.printed gap).nodes k).map m.importOf = [i.toImport] := by
  have hfound := foundIn_statement h.inside
  have hmodule := hfound.module []
  have htext := textOf_node h
  have hline := i.text_printed []
  rw [List.append_nil] at hmodule
  rw [printed, Printed.text_node, List.nil_append, List.nil_append] at hline
  rw [hline] at htext
  rw [printed, Printed.nodes_node, List.map_singleton, Module.importOf_eq, hline, htext]
  unfold Node.children
  rw [hmodule, hfound.marked, hfound.clause.defaultName, hfound.clause.namespaceName,
    hfound.clause.names, Option.map_some, Option.getD_some, String.toList_ofList, trimBoth_module]
  rfl

/-- The import statements among some nodes. -/
def importsIn (m : Module) (nodes : List Node) : List Import :=
  ((nodes.filter Node.isNamed).filter fun n => n.kind? = some .importStatement).map m.importOf

theorem importsIn_append (a b : List Node) :
    importsIn m (a ++ b) = importsIn m a ++ importsIn m b := by
  simp [importsIn]

theorem importsIn_printed (h : (i.printed gap).StandsIn m.text k) :
    importsIn m ((i.printed gap).nodes k) = [i.toImport] := importOf_eq h

theorem importsIn_next {rest : List ImportLine}
    (h : (Printed.concat (rest.map fun j => j.printed gap)).StandsIn m.text k) :
    importsIn m ((Printed.concat (rest.map fun j => j.printed gap)).nodes k) = rest.map toImport := by
  induction rest generalizing k with
  | nil => rfl
  | cons j rest ih =>
    rw [List.map_cons, Printed.concat, Printed.nodes_append, importsIn_append,
      importsIn_printed h.left, ih h.right]
    rfl

theorem importsIn_statements {lines : List ImportLine}
    (h : (Printed.concat (statements lines)).StandsIn m.text k) :
    importsIn m ((Printed.concat (statements lines)).nodes k) = lines.map toImport := by
  cases lines with
  | nil => rfl
  | cons i rest =>
    rw [statements, Printed.concat, Printed.nodes_append, importsIn_append, importsIn_printed h.left,
      importsIn_next h.right]
    rfl

theorem standsIn_source (lines : List ImportLine) (final : Bool) :
    (Printed.concat (statements lines)).StandsIn (source lines final)
      (margins lines final).1.length := by
  have hprogram : (program lines final).StandsIn (source lines final) 0 := by
    rw [Printed.StandsIn, text_program, List.drop_zero]
  have hinside := hprogram.inside
  rw [Nat.zero_add] at hinside
  exact hinside.left

/-- Every name that a statement binds: its default name, and then its namespace or the names in its
braces as they are called here. -/
def boundNames (i : ImportLine) : List Identifier :=
  i.defaultName.toList ++ (i.bindings.map Bindings.localNames).getD []

theorem boundNames_toImport (i : ImportLine) :
    i.toImport.boundNames = i.boundNames.map Identifier.name := by
  have hdefault := Identifier.filter_name i.defaultName
  rw [Import.boundNames, toImport, hdefault, boundNames, List.map_append, List.append_assoc,
    Option.toList_map]
  congr 1
  cases i.bindings with
  | none => rfl
  | some b => exact b.boundNames_eq

end ImportLine

/-- Import statements, one on each line, are read as a module that imports them: each record holds
the line and what is written on it, and binds the names that the line does. -/
theorem imports_of_lines (lines : List ImportLine) (final : Bool) (path : String)
    (hpath : (Module.dialect? path).isSome = true) :
    ∃ m, Module.parse (String.ofList (ImportLine.source lines final)) path = .ok m ∧
      m.imports = lines.map ImportLine.toImport ∧
      m.imports.map Import.boundNames = lines.map fun i => i.boundNames.map Identifier.name := by
  obtain ⟨d, hd⟩ := Option.isSome_iff_exists.mp hpath
  let m : Module := ⟨ImportLine.source lines final, ImportLine.root lines final⟩
  have hparse : Module.parse (String.ofList (ImportLine.source lines final)) path = .ok m := by
    simp only [Module.parse, hd, String.toList_ofList, ImportLine.parse_source, m]
  have himports : m.imports = lines.map ImportLine.toImport :=
    ImportLine.importsIn_statements (ImportLine.standsIn_source lines final)
  refine ⟨m, hparse, himports, ?_⟩
  rw [himports, List.map_map]
  exact List.map_congr_left fun i _ => i.boundNames_toImport

namespace ImportLine

/-- Statements of every form, in both quotes and with and without a mark at their end. -/
def everyForm : List ImportLine :=
  let names : List Specifier :=
    [⟨false, .of "A" rfl, none⟩, ⟨false, .of "b$" rfl, some (.of "_c" rfl)⟩]
  [{ typeOnly := true
     bindings := some (.names 1 names)
     module := "./x".toList
     unquoted := rfl
     unmarked := fun _ => ⟨rfl, 1, names, rfl, fun s hs => by
      rcases List.mem_cons.mp hs with rfl | hs
      · rfl
      · rw [List.mem_singleton.mp hs]⟩ },
   { defaultName := some (.of "React" rfl)
     bindings := some (.names 0
      [⟨true, .of "Ref" rfl, some (.of "R" rfl)⟩, ⟨false, .of "use" rfl, none⟩])
     quote := .double
     module := "react".toList
     semicolon := false
     unquoted := rfl
     unmarked := fun h => absurd h Bool.false_ne_true },
   { defaultName := some (.of "d" rfl)
     bindings := some (.all (.of "ns" rfl))
     module := []
     unquoted := rfl
     unmarked := fun h => absurd h Bool.false_ne_true },
   { module := "../é".toList
     semicolon := false
     unquoted := rfl
     unmarked := fun h => absurd h Bool.false_ne_true }]

def everyFormText : String :=
  "import type \x7b A, b$ as _c \x7d from './x';\n"
    ++ "import React, \x7btype Ref as R, use\x7d from \"react\"\n"
    ++ "import d, * as ns from '';\nimport '../é'\n"

theorem source_everyForm : String.ofList (source everyForm true) = everyFormText := by
  decide +kernel

end ImportLine

theorem imports_of_everyForm : (Module.dialect? "src/a.tsx").isSome = true ∧
    ∃ m, Module.parse ImportLine.everyFormText "src/a.tsx" = .ok m ∧
      m.imports = ImportLine.everyForm.map ImportLine.toImport ∧
      m.imports.map Import.boundNames = [["A", "_c"], ["React", "R", "use"], ["d", "ns"], []] := by
  refine ⟨by decide, ?_⟩
  have h := imports_of_lines ImportLine.everyForm true "src/a.tsx" (by decide)
  rw [ImportLine.source_everyForm] at h
  exact h

end ConventionLint
