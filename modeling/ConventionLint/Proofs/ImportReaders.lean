import ConventionLint.Proofs.PrintedImports

/-! How the grammar reads import statements: the reader of each part takes the part off the front of
a text, and finds its nodes. -/
namespace ConventionLint

open Source

/-! How names are read. -/

namespace Identifier

variable (n : Identifier) {v : List Char} {c : Char}

/-- A property of ASCII characters, told by their codes one by one. -/
theorem forall_ascii {P : Char → Prop} (h : ∀ k : Fin 0x80, P (Char.ofNat k)) (hc : c.toNat < 0x80) :
    P c := by
  have hk := h ⟨c.toNat, hc⟩
  rwa [Char.ofNat_toNat] at hk

theorem lt_of_ascii (h : (c.isAlphanum || c = '_' || c = '$') = true) : c.toNat < 0x80 := by
  simp only [Bool.or_eq_true, decide_eq_true_eq] at h
  rcases h with (h | rfl) | rfl
  · rcases Bool.or_eq_true_iff.mp h with h | h
    · exact lt_of_isNameStart (by simp [ObjectType.isNameStart, h])
    · have hz : c.toNat ≤ 57 := of_decide_eq_true (Bool.and_eq_true_iff.mp h).2
      omega
  · decide
  · decide

theorem isNamePart_of_ascii (h : (c.isAlphanum || c = '_' || c = '$') = true) :
    isNamePart c = true :=
  forall_ascii
    (P := fun c => (c.isAlphanum || c = '_' || c = '$') = true → isNamePart c = true)
    (by decide +kernel) (lt_of_ascii h) h

theorem not_isDigit_of_isNameStart (h : ObjectType.isNameStart c = true) : c.isDigit = false :=
  forall_ascii (P := fun c => ObjectType.isNameStart c = true → c.isDigit = false)
    (by decide +kernel) (lt_of_isNameStart h) h

theorem isWord : IsWord n.chars := by
  obtain ⟨c, hc, hstart⟩ := n.ascii.start
  refine ⟨?_, List.all_eq_true.mpr fun d hd => isNamePart_of_ascii (n.ascii.chars d hd)⟩
  rw [chars, hc, Option.any_some, not_isDigit_of_isNameStart hstart]
  rfl

theorem wordAt_append (hv : Halts v) : wordAt (n.chars ++ v) = n.name := by
  rw [n.isWord.wordAt_append hv, chars, String.ofList_toList]

theorem name_notMem {ws : List String} (h : ws.all keywords.contains = true) : n.name ∉ ws := by
  intro hn
  exact n.free (List.contains_iff_mem.mp (List.all_eq_true.mp h _ hn))

end Identifier

namespace Source.Reader

open Printed

variable {u v gap : List Char}

theorem takes_identifier (n : Identifier) (r : Role) (hg : IsGaps gap) (hv : Halts v) :
    Takes (playing r (name .identifier)) (n.printed gap (some r)) v :=
  (takes_name hg n.isWord hv).playing r

/-! Marks of types. -/

theorem refuses_typeMark (hg : IsGaps gap) (hu : AtToken u) (hw : wordAt u ∉ ["type", "typeof"]) :
    Refuses typeMark (gap ++ u) := by
  simp only [List.mem_cons, List.not_mem_nil, or_false, not_or] at hw
  refine Refuses.bind (Refuses.orElse (refuses_word hg hu hw.1) ?_) _
  exact (refuses_word hg hu hw.2).orElse (refuses_failure _)

theorem takes_typeMark {space : List Char} (hg : IsGaps gap) (hs : IsGaps space) (hu : AtToken u)
    (hv : Halts (space ++ u)) (hw : wordAt u ∉ ["from", "as"])
    (hc : u.head?.any (fun c => c = ',' || c = '=' || c = '}') = false) :
    Takes typeMark (token gap "type") (space ++ u) := by
  have hwords : Takes (words ["type", "typeof"]) (token gap "type") (space ++ u) :=
    (takes_word hg (by decide) hv).orElse_left _
  refine hwords.bind_nil ?_
  constructor
  intro pos found
  have hw : (!(["from", "as"].contains (wordAt u))) = true := by simpa using hw
  rw [text_plain, List.nil_append, aheadWord_bind _ hs hu, guard_bind_of_pos hw,
    aheadChar_bind _ hs hu, hc]
  rfl

/-! Names in braces. -/

/-- A text that may follow a name in braces: gaps, and a sign. -/
def EndsName (v : List Char) : Prop := ∃ gap u, IsGaps gap ∧ AtSign u ∧ v = gap ++ u

theorem EndsName.halts (h : EndsName v) : Halts v := by
  obtain ⟨gap, u, hg, hu, rfl⟩ := h
  exact halts_append hg hu.halts

theorem EndsName.refuses_word {w : String} (h : EndsName v) (hw : w ≠ "") : Refuses (word w) v := by
  obtain ⟨gap, u, hg, hu, rfl⟩ := h
  exact Reader.refuses_word hg hu.token (by rw [hu.halts.wordAt_eq]; exact hw.symm)

theorem takes_renamed (n : Option Identifier) (hv : EndsName v) :
    Takes (maybe do word "as"; playing .asName (name .identifier)) (Specifier.renamed n) v := by
  cases n with
  | none => exact takes_maybe_nil ((hv.refuses_word (by decide)).bind _)
  | some n =>
    have hname := takes_identifier n .asName isGaps_space hv.halts
    exact ((takes_word isGaps_space (by decide) (halts_space _)).bind hname).maybe

theorem halts_renamed (n : Option Identifier) (hv : EndsName v) :
    Halts ((Specifier.renamed n).text ++ v) := by
  cases n with
  | none => exact hv.halts
  | some n => exact halts_space _

theorem takes_named (s : Specifier) (hg : IsGaps gap) (hv : EndsName v) :
    Takes specifierName (s.named gap) v := by
  have hname := takes_identifier s.name .name hg (halts_renamed s.asName hv)
  exact (hname.bind (takes_renamed s.asName hv)).orElse_left _

/-- A name with what follows it in its specifier. -/
theorem text_named_append (s : Specifier) (gap v : List Char) :
    (s.named gap).text ++ v = gap ++ (s.name.chars ++ ((Specifier.renamed s.asName).text ++ v)) := by
  simp [Specifier.named]

theorem wordAt_named (s : Specifier) (hv : EndsName v) :
    wordAt (s.name.chars ++ ((Specifier.renamed s.asName).text ++ v)) = s.name.name :=
  s.name.wordAt_append (halts_renamed s.asName hv)

theorem takes_specifier (s : Specifier) (hg : IsGaps gap) (hv : EndsName v) :
    Takes importSpecifier (s.printed gap) v := by
  have hword := wordAt_named s hv
  have hat := s.name.isWord.atToken_append ((Specifier.renamed s.asName).text ++ v)
  cases ht : s.typeOnly with
  | false =>
    have hmark : Refuses (do typeMark; specifierName) ((s.named []).text ++ v) := by
      rw [text_named_append]
      refine (refuses_typeMark isGaps_nil hat ?_).bind _
      rw [hword]
      exact s.name.name_notMem (by decide)
    rw [Specifier.printed, ht]
    refine ((takes_named s isGaps_nil hv).orElse_right hmark).node hg ?_
    rw [text_named_append]
    exact hat
  | true =>
    have hmark : Takes typeMark (token [] "type") ((s.named [' ']).text ++ v) := by
      rw [text_named_append]
      refine takes_typeMark isGaps_nil isGaps_space hat (halts_space _) ?_ ?_
      · rw [hword]
        exact s.name.name_notMem (by decide)
      · refine s.name.isWord.head?_any _ fun c hc => ?_
        simp only [Bool.or_eq_true, decide_eq_true_eq] at hc
        rcases hc with (rfl | rfl) | rfl <;> decide
    rw [Specifier.printed, ht]
    exact ((hmark.bind (takes_named s isGaps_space hv)).orElse_left _).node hg rfl

/-! Strings. -/

theorem fragmentUntil_eq (stop : Char → Bool) (s : State) :
    fragmentUntil stop s = run .fragment (s.rest.takeWhile fun c => !stop c).length s := rfl

theorem length_takeWhile_append {stop : Char → Bool} (hu : ∀ c ∈ u, stop c = false)
    (hv : v.head?.any stop = true) : ((u ++ v).takeWhile fun c => !stop c).length = u.length := by
  rw [List.takeWhile_append_of_pos fun c hc => by rw [hu c hc]; rfl]
  cases v with
  | nil => cases hv
  | cons c v =>
    have hc : stop c = true := hv
    simp [hc]

theorem takes_fragment {stop : Char → Bool} (hne : u ≠ []) (hu : ∀ c ∈ u, stop c = false)
    (hv : v.head?.any stop = true) :
    Takes (fragmentUntil stop) (.node [] .fragment none (plain u)) v := by
  have hlength := length_takeWhile_append hu hv
  constructor
  intro pos found
  rw [fragmentUntil_eq, text_node, text_plain, List.nil_append, hlength, run,
    if_neg (mt List.length_eq_zero_iff.mp hne)]
  simp [State.take]

theorem refuses_fragment {stop : Char → Bool} (hv : v.head?.any stop = true) :
    Refuses (fragmentUntil stop) v := by
  have hnil : ∀ c ∈ [], stop c = false := fun c hc => absurd hc List.not_mem_nil
  have hlength := length_takeWhile_append hnil hv
  rw [List.nil_append] at hlength
  constructor
  intro pos found
  rw [fragmentUntil_eq, hlength, run, if_pos (List.length_nil)]

theorem refuses_escape (q : Quote) (v : List Char) : Refuses escape (q.char :: v) := by
  constructor
  intro pos found
  cases q <;> rfl

theorem refuses_stringWith {quote : Char} {t : String} (hg : IsGaps gap) (hu : AtToken u)
    (h : t.toList.isPrefixOf u = false) : Refuses (stringWith quote t) (gap ++ u) :=
  Refuses.node ((refuses_lit isGaps_nil hu h).bind _) hg hu

theorem atToken_mark (q : Quote) (v : List Char) : AtToken (q.mark.toList ++ v) := by
  cases q <;> rfl

/-- What is read between two quotes, up to the second. -/
theorem takesEach_fragments (q : Quote) (hu : isUnquoted u = true) (v : List Char) :
    TakesEach (fragmentUntil (fun c => c = q.char || c = '\\' || c = '\r' || c = '\n') <|> escape)
      (Quote.fragments u) (q.char :: v) := by
  have hend : Refuses
      (fragmentUntil (fun c => c = q.char || c = '\\' || c = '\r' || c = '\n') <|> escape)
      (q.char :: v) := (refuses_fragment (by simp)).orElse (refuses_escape q v)
  by_cases hne : u = []
  · rw [Quote.fragments, if_pos hne]
    exact hend
  · rw [Quote.fragments, if_neg hne]
    refine ⟨hne, (takes_fragment hne ?_ (by simp [Printed.concat])).orElse_left _, hend⟩
    intro c hc
    have hc := not_mem_of_isUnquoted hu hc
    cases q <;> simp_all [Quote.char]

theorem takes_stringWith (q : Quote) (hg : IsGaps gap) (hu : isUnquoted u = true) (v : List Char) :
    Takes (stringWith q.char q.mark) (q.printed gap none u) v := by
  have hclose : Takes (lit q.mark) (token [] q.mark) v := takes_lit isGaps_nil (atToken_mark q v)
  have hmany := (takesEach_fragments q hu v).many
  rw [← List.singleton_append, ← q.toList_mark] at hmany
  refine ((takes_lit isGaps_nil (atToken_mark q _)).bind (hmany.bind hclose)).node hg ?_
  rw [text_append, text_token, List.nil_append, List.append_assoc]
  exact atToken_mark q _

theorem takes_string (q : Quote) (hg : IsGaps gap) (hu : isUnquoted u = true) (v : List Char) :
    Takes string (q.printed gap none u) v := by
  have h := takes_stringWith q hg hu v
  cases q with
  | double => exact h.orElse_left _
  | single =>
    refine h.orElse_right ?_
    rw [Quote.text_printed, List.append_assoc]
    exact refuses_stringWith hg rfl rfl

/-! Bindings. -/

theorem atSign_brace (v : List Char) : AtSign ('}' :: v) := atSign_cons '}' (by decide) v

theorem atSign_comma (v : List Char) : AtSign (',' :: v) := atSign_cons ',' (by decide) v

theorem text_closing_append (gap v : List Char) :
    (token gap "\x7d").text ++ v = gap ++ '}' :: v := by
  simp

theorem refuses_specifier (hg : IsGaps gap) (v : List Char) :
    Refuses importSpecifier (gap ++ '}' :: v) := by
  have hu := atSign_brace v
  have hmark : Refuses typeMark ('}' :: v) :=
    refuses_typeMark isGaps_nil hu.token (by rw [hu.halts.wordAt_eq]; decide)
  have hname : Refuses (name .identifier) ('}' :: v) := refuses_name isGaps_nil hu.token hu.halts
  have hstring : Refuses string ('}' :: v) :=
    (refuses_stringWith isGaps_nil hu.token rfl).orElse (refuses_stringWith isGaps_nil hu.token rfl)
  have hspecifier : Refuses specifierName ('}' :: v) :=
    ((hname.playing _).bind _).orElse ((hstring.playing _).bind _)
  exact ((hmark.bind _).orElse hspecifier).node hg hu.token

theorem endsName_closing (hg : IsGaps gap) (v : List Char) : EndsName (gap ++ '}' :: v) :=
  ⟨gap, _, hg, atSign_brace v, rfl⟩

/-- A name may be followed by any other specifier. -/
theorem endsName_next {a : Printed} {rest : List Specifier} (ha : a ∈ rest.map Specifier.next)
    (v : List Char) : EndsName (a.text ++ v) := by
  obtain ⟨s, -, rfl⟩ := List.mem_map.mp ha
  exact ⟨[], _, isGaps_nil, atSign_comma _, by rw [Specifier.text_next]; rfl⟩

theorem takes_next (s : Specifier) (hv : EndsName v) :
    Takes (do lit ","; importSpecifier) s.next v :=
  (takes_lit isGaps_nil (atSign_comma _).token).bind (takes_specifier s isGaps_space hv)

/-- All specifiers after the first, up to the closing brace. -/
theorem takesEach_next {padding : List Char} (hg : IsGaps padding) (rest : List Specifier)
    (v : List Char) : TakesEach (do lit ","; importSpecifier) (rest.map Specifier.next)
      (padding ++ '}' :: v) := by
  have hend : Refuses (do lit ","; importSpecifier) (padding ++ '}' :: v) :=
    (refuses_lit hg (atSign_brace v).token rfl).bind _
  refine takesEach_of_follows hend (endsName_closing hg v) ?_ ?_ fun a ha u _ => endsName_next ha u
  · intro a ha
    obtain ⟨s, -, rfl⟩ := List.mem_map.mp ha
    simp
  · intro a ha u hu
    obtain ⟨s, -, rfl⟩ := List.mem_map.mp ha
    exact takes_next s hu

theorem takes_inBraces {padding : List Char} (hg : IsGaps padding) (specifiers : List Specifier)
    (v : List Char) : Takes (do maybe (listed importSpecifier); lit "\x7d")
      (Bindings.inBraces padding specifiers) v := by
  cases specifiers with
  | nil =>
    have hgaps : IsGaps (padding ++ padding) := by
      rw [IsGaps, List.all_append, Bool.and_eq_true]
      exact ⟨hg, hg⟩
    have hnone : Refuses (listed importSpecifier) ((token (padding ++ padding) "\x7d").text ++ v) := by
      rw [text_closing_append]
      exact (refuses_specifier hgaps v).bind _
    rw [Bindings.inBraces]
    exact (takes_maybe_nil hnone).nil_bind (takes_sign (by decide) hgaps v)
  | cons s rest =>
    have hcomma : Refuses (lit ",") (padding ++ '}' :: v) :=
      refuses_lit hg (atSign_brace v).token rfl
    have hfollow : EndsName ((concat (rest.map Specifier.next)).text ++ (padding ++ '}' :: v)) :=
      follows_concat (fun a ha u _ => endsName_next ha u) (endsName_closing hg v)
    have hrest := (takesEach_next hg rest v).many.bind_nil (takes_maybe_nil hcomma)
    have hlisted := (takes_specifier s hg hfollow).bind hrest
    rw [← text_closing_append] at hlisted
    exact hlisted.maybe.bind (takes_sign (by decide) hg v)

theorem takes_all (n : Identifier) (hg : IsGaps gap) (hv : Halts v) :
    Takes namespaceImport ((Bindings.all n).printed gap) v := by
  have hname : Takes (name .identifier) (n.printed [' '] none) v :=
    takes_name isGaps_space n.isWord hv
  have has : Takes (word "as") (token [' '] "as") ((n.printed [' '] none).text ++ v) :=
    takes_word isGaps_space (by decide) (halts_space _)
  exact ((takes_sign (by decide) isGaps_nil _).bind (has.bind hname)).node hg rfl

theorem takes_names (padding : Nat) (specifiers : List Specifier) (hg : IsGaps gap) (v : List Char) :
    Takes namedImports ((Bindings.names padding specifiers).printed gap) v := by
  have hinside := takes_inBraces (isGaps_replicate padding) specifiers v
  exact ((takes_sign (by decide) isGaps_nil _).bind hinside).node hg rfl

theorem refuses_namespaceImport (hg : IsGaps gap) (hu : AtToken u)
    (h : "*".toList.isPrefixOf u = false) : Refuses namespaceImport (gap ++ u) :=
  Refuses.node ((refuses_lit isGaps_nil hu h).bind _) hg hu

theorem refuses_namedImports (hg : IsGaps gap) (hu : AtToken u)
    (h : "\x7b".toList.isPrefixOf u = false) : Refuses namedImports (gap ++ u) :=
  Refuses.node ((refuses_lit isGaps_nil hu h).bind _) hg hu

theorem takes_bindings (b : Bindings) (hg : IsGaps gap) (hv : Halts v) :
    Takes (namespaceImport <|> namedImports) (b.printed gap) v := by
  cases b with
  | all n => exact (takes_all n hg hv).orElse_left _
  | names padding specifiers =>
    refine (takes_names padding specifiers hg v).orElse_right ?_
    rw [Bindings.text_printed, List.append_assoc]
    exact refuses_namespaceImport hg rfl rfl

/-! Clauses. -/

/-- Bindings without a default name before them. -/
theorem takes_clause_bindings (b : Bindings) (hg : IsGaps gap) (hv : Halts v) :
    Takes importClause (.node gap .importClause none (b.printed [])) v := by
  cases b with
  | all n => exact ((takes_all n isGaps_nil hv).orElse_left _).node hg rfl
  | names padding specifiers =>
    have hspace :
        Refuses namespaceImport (((Bindings.names padding specifiers).printed []).text ++ v) := by
      rw [Bindings.text_printed, List.append_assoc]
      exact refuses_namespaceImport isGaps_nil rfl rfl
    have hnames := (takes_names padding specifiers isGaps_nil v).orElse_left
      (oneOf [do name .identifier; maybe do lit ","; namespaceImport <|> namedImports])
    exact (hnames.orElse_right hspace).node hg rfl

theorem takes_afterDefault (b : Option Bindings) (hv : Halts v) (hcomma : Refuses (lit ",") v) :
    Takes (maybe do lit ","; namespaceImport <|> namedImports) (ImportLine.afterDefault b) v := by
  cases b with
  | none => exact takes_maybe_nil (hcomma.bind _)
  | some b =>
    have hbindings := takes_bindings b isGaps_space hv
    exact ((takes_sign (by decide) isGaps_nil _).bind hbindings).maybe

theorem halts_afterDefault (b : Option Bindings) (hv : Halts v) :
    Halts ((ImportLine.afterDefault b).text ++ v) := by
  cases b with
  | none => exact hv
  | some b => rfl

theorem takes_clause_default (n : Identifier) (b : Option Bindings) (hg : IsGaps gap)
    (hv : Halts v) (hcomma : Refuses (lit ",") v) :
    Takes importClause
      (.node gap .importClause none (n.printed [] none ++ ImportLine.afterDefault b)) v := by
  have hat := n.isWord.atToken_append ((ImportLine.afterDefault b).text ++ v)
  have htext : (n.printed [] none ++ ImportLine.afterDefault b).text ++ v
      = n.chars ++ ((ImportLine.afterDefault b).text ++ v) := by simp
  have hname : Takes (name .identifier) (n.printed [] none) ((ImportLine.afterDefault b).text ++ v) :=
    takes_name isGaps_nil n.isWord (halts_afterDefault b hv)
  have hspace := refuses_namespaceImport isGaps_nil hat (isPrefixOf_word n.isWord (by decide) _)
  have hnames := refuses_namedImports isGaps_nil hat (isPrefixOf_word n.isWord (by decide) _)
  rw [List.nil_append, ← htext] at hspace hnames
  have hdefault := (hname.bind (takes_afterDefault b hv hcomma)).orElse_left failure
  refine ((hdefault.orElse_right hnames).orElse_right hspace).node hg ?_
  rw [htext]
  exact hat

/-! What is imported, and from where. -/

theorem takes_from (q : Quote) (hu : isUnquoted u = true) (v : List Char) :
    Takes fromClause (token [' '] "from" ++ q.printed [' '] (some .module) u) v := by
  have hmodule : Takes (playing .module string) (q.printed [' '] (some .module) u) v :=
    (takes_string q isGaps_space hu v).playing .module
  refine Takes.bind (takes_word isGaps_space (by decide) ?_) hmodule
  rw [Quote.text_printed]
  exact halts_space _

theorem refuses_comma_from (v : List Char) : Refuses (lit ",") (' ' :: ("from".toList ++ v)) := by
  have hfrom : IsWord "from".toList := by decide
  exact refuses_lit isGaps_space (hfrom.atToken_append v) (isPrefixOf_word hfrom (by decide) v)

/-- A text that starts with a quote. -/
theorem atSign_quote (q : Quote) (v : List Char) : AtSign (q.char :: v) := by
  cases q with
  | double => exact atSign_cons '"' (by decide) v
  | single => exact atSign_cons '\'' (by decide) v

theorem refuses_clause_quote (q : Quote) (hg : IsGaps gap) (v : List Char) :
    Refuses importClause (gap ++ q.char :: v) := by
  have hu := atSign_quote q v
  have hspace : Refuses namespaceImport (q.char :: v) :=
    refuses_namespaceImport isGaps_nil hu.token (by cases q <;> rfl)
  have hnames : Refuses namedImports (q.char :: v) :=
    refuses_namedImports isGaps_nil hu.token (by cases q <;> rfl)
  have hname : Refuses (name .identifier) (q.char :: v) := refuses_name isGaps_nil hu.token hu.halts
  exact (hspace.orElse (hnames.orElse ((hname.bind _).orElse (refuses_failure _)))).node hg hu.token

theorem refuses_require_quote (q : Quote) (hg : IsGaps gap) (v : List Char) :
    Refuses requireClause (gap ++ q.char :: v) := by
  have hu := atSign_quote q v
  have hname : Refuses (name .identifier) (q.char :: v) := refuses_name isGaps_nil hu.token hu.halts
  exact (hname.bind _).node hg hu.token

theorem takes_body (i : ImportLine) (v : List Char) : Takes importBody i.body v := by
  have hfrom := takes_from i.quote i.unquoted v
  have hcomma := refuses_comma_from (i.quoted.text ++ v)
  unfold ImportLine.body
  cases hn : i.defaultName with
  | some n =>
    have hclause := takes_clause_default n i.bindings isGaps_space (halts_space _) hcomma
    exact (hclause.bind hfrom).orElse_left _
  | none =>
    cases hb : i.bindings with
    | some b =>
      have hspace := halts_space ("from".toList ++ (i.quoted.text ++ v))
      have hclause := takes_clause_bindings b isGaps_space hspace
      exact (hclause.bind hfrom).orElse_left _
    | none =>
      have hmodule : Takes (playing .module string) i.quoted v :=
        (takes_string i.quote isGaps_space i.unquoted v).playing .module
      have htext : i.quoted.text ++ v = [' '] ++ i.quote.char :: (i.module ++ [i.quote.char] ++ v) := by
        simp [ImportLine.quoted]
      refine ((hmodule.orElse_left failure).orElse_right ?_).orElse_right ?_
      · rw [htext]
        exact refuses_require_quote i.quote isGaps_space _
      · rw [htext]
        exact (refuses_clause_quote i.quote isGaps_space _).bind _

/-! Ends of statements. -/

/-- What may follow a statement: the end of the text, with or without a line break, or another line. -/
inductive EndsLine : List Char → Prop
  | nil : EndsLine []
  | final : EndsLine ['\n']
  | next (v : List Char) : EndsLine ('\n' :: ("import".toList ++ ' ' :: v))

theorem EndsLine.endsHere (h : EndsLine v) : endsHere .plain v = true := by
  cases h with
  | nil => rfl
  | final => rfl
  | next v => rfl

theorem takes_semicolon_nil (hv : EndsLine v) : Takes (semicolon .plain) (plain []) v :=
  (takes_understood hv.endsHere).orElse_left _

theorem refuses_understood_mark (v : List Char) : Refuses (understood .plain) (';' :: v) :=
  refuses_understood rfl rfl

theorem takes_semicolon_mark (v : List Char) : Takes (semicolon .plain) (token [] ";") v :=
  (takes_sign (by decide) isGaps_nil v).orElse_right (refuses_understood_mark v)

theorem refuses_attributes (g : Phrases) (hv : EndsLine v) : Refuses (importAttributes g) v :=
  (refuses_onward (takes_understood hv.endsHere)).bind _

theorem refuses_attributes_mark (g : Phrases) (v : List Char) :
    Refuses (importAttributes g) (';' :: v) := by
  have hsign : AtSign (';' :: v) := atSign_cons ';' (by decide) v
  have hwith : Refuses (word "with") (';' :: v) :=
    refuses_word isGaps_nil hsign.token (by rw [hsign.halts.wordAt_eq]; decide)
  have hassert : Refuses (word "assert") (';' :: v) :=
    refuses_word isGaps_nil hsign.token (by rw [hsign.halts.wordAt_eq]; decide)
  exact (takes_onward (refuses_understood_mark v)).refuses_bind
    ((hwith.orElse (hassert.orElse (refuses_failure _))).bind _)

/-- The end of a statement, with what could stand before it. -/
theorem takes_ending (g : Phrases) (i : ImportLine) (hv : EndsLine v) :
    Takes (do maybe (importAttributes g); semicolon .plain) i.ending v := by
  unfold ImportLine.ending
  cases i.semicolon with
  | true => exact (takes_maybe_nil (refuses_attributes_mark g v)).nil_bind (takes_semicolon_mark v)
  | false => exact (takes_maybe_nil (refuses_attributes g hv)).nil_bind (takes_semicolon_nil hv)

/-! Statements. -/

/-- A text whose first word is no mark of types. -/
def Unmarked (u : List Char) : Prop := AtToken u ∧ wordAt u ∉ ["type", "typeof"]

theorem unmarked_of_atSign (h : AtSign u) : Unmarked u :=
  ⟨h.token, by rw [h.halts.wordAt_eq]; decide⟩

theorem unmarked_identifier (n : Identifier) (hv : Halts v) : Unmarked (n.chars ++ v) := by
  refine ⟨n.isWord.atToken_append v, ?_⟩
  rw [n.wordAt_append hv]
  exact n.name_notMem (by decide)

theorem atSign_bindings (b : Bindings) (v : List Char) : AtSign (b.text ++ v) := by
  cases b with
  | all n => exact atSign_cons '*' (by decide) _
  | names padding specifiers => exact atSign_cons '{' (by decide) _

/-- What stands before the module is no mark of types. -/
theorem unmarked_clause (i : ImportLine) (v : List Char) :
    Unmarked (i.clause ++ i.quote.char :: v) := by
  unfold ImportLine.clause
  cases i.defaultName with
  | some n =>
    cases i.bindings with
    | some b =>
      simp only [List.append_assoc]
      exact unmarked_identifier n rfl
    | none =>
      simp only [List.append_assoc]
      exact unmarked_identifier n rfl
  | none =>
    cases i.bindings with
    | some b =>
      simp only [List.append_assoc]
      exact unmarked_of_atSign (atSign_bindings b _)
    | none => exact unmarked_of_atSign (atSign_quote i.quote v)

theorem clause_of_typeOnly (i : ImportLine) (h : i.typeOnly = true) :
    ∃ u, i.clause = '{' :: u := by
  obtain ⟨hn, padding, specifiers, hb, -⟩ := i.unmarked h
  rw [ImportLine.clause, hn, hb]
  exact ⟨_, rfl⟩

theorem text_body_append (i : ImportLine) (v : List Char) : i.body.text ++ v
    = [' '] ++ (i.clause ++ i.quote.char :: (i.module ++ i.quote.char :: v)) := by
  simp [ImportLine.text_body]

theorem takes_typed (i : ImportLine) (v : List Char) :
    Takes ((do typeMark; importBody) <|> importBody) i.typed v := by
  have hbody := takes_body i v
  have htext := text_body_append i v
  have hclause := unmarked_clause i (i.module ++ i.quote.char :: v)
  unfold ImportLine.typed
  cases ht : i.typeOnly with
  | false =>
    -- The body is read with a mark first, so it must not start with the word of one.
    have hmark : Refuses typeMark (i.body.text ++ v) := by
      rw [htext]
      exact refuses_typeMark isGaps_space hclause.1 hclause.2
    exact hbody.orElse_right (hmark.bind _)
  | true =>
    have hmark : Takes typeMark (token [' '] "type") (i.body.text ++ v) := by
      obtain ⟨u, hu⟩ := clause_of_typeOnly i ht
      have hbrace : AtSign ('{' :: u ++ i.quote.char :: (i.module ++ i.quote.char :: v)) :=
        atSign_cons '{' (by decide) _
      rw [htext, hu]
      exact takes_typeMark isGaps_space isGaps_space hbrace.token (halts_space _)
        (by rw [hbrace.halts.wordAt_eq]; decide) rfl
    exact (hmark.bind hbody).orElse_left _

theorem halts_typed (i : ImportLine) (v : List Char) : Halts (i.typed.text ++ v) := by
  unfold ImportLine.typed
  cases i.typeOnly with
  | true => exact halts_space _
  | false =>
    rw [if_neg Bool.false_ne_true, text_body_append]
    exact halts_space _

theorem takes_import (g : Phrases) (i : ImportLine) (hg : IsGaps gap) (hv : EndsLine v) :
    Takes (importStatement g) (i.printed gap) v := by
  have hword : Takes (word "import") (token [] "import") ((i.typed ++ i.ending).text ++ v) := by
    refine takes_word isGaps_nil (by decide) ?_
    rw [text_append, List.append_assoc]
    exact halts_typed i _
  exact (hword.bind ((takes_typed i _).bind (takes_ending g i hv))).node hg rfl

theorem text_eq_cons (i : ImportLine) : ∃ u, i.text = "import".toList ++ ' ' :: u := by
  simp only [ImportLine.text, spaced, List.append_assoc]
  exact ⟨_, rfl⟩

theorem statement_import (g : Phrases) (hg : IsGaps gap) (hv : Halts v) (pos : Nat)
    (found : List Node) :
    statement g ⟨gap ++ ("import".toList ++ v), pos, found⟩
      = (importStatement g <|> importAlias <|> expressionStatement g)
        ⟨gap ++ ("import".toList ++ v), pos, found⟩ := by
  have hword : IsWord "import".toList := by decide
  have hat := hword.atToken_append v
  have hhead : ("import".toList ++ v).head? = some 'i' := rfl
  -- The first character leads to the choice by words, and the word to the branch.
  rw [statement, aheadChar_bind _ hg hat, hhead]
  change (aheadWord >>= _) _ = _
  rw [aheadWord_bind _ hg hat, hword.wordAt_append hv, String.ofList_toList]
  rfl

theorem takes_statement (g : Phrases) (i : ImportLine) (hg : IsGaps gap) (hv : EndsLine v) :
    Takes (statement g) (i.printed gap) v := by
  have h := (takes_import g i hg hv).orElse_left (importAlias <|> expressionStatement g)
  obtain ⟨u, hu⟩ := text_eq_cons i
  constructor
  intro pos found
  have hrun := h.run_eq pos found
  rw [ImportLine.text_printed, hu, List.append_assoc, List.append_assoc] at hrun ⊢
  rw [List.cons_append] at hrun ⊢
  rw [statement_import g hg (halts_space _)]
  exact hrun

end Source.Reader

end ConventionLint
