import ConventionLint.Proofs.Reading

/-! Every rule of the grammar keeps what its phrases keep, so all trees are tidy and laid out. -/
namespace ConventionLint.Source

/-! What is found below some nodes, where more is known of it than that it is tidy. -/
namespace Node

/-- The level inside a string: its plain parts stand on one line each. -/
def InString (text : List Char) (n : Node) : Prop :=
  n.Tidy text ∧ (n.kind? = some .fragment → n.span.OnLine text)

/-- The level inside a property: strings are plain. -/
def InPair (text : List Char) (n : Node) : Prop :=
  n.Tidy text ∧ (n.kind? = some .string → n.IsPlain text)

/-- The level inside a specifier: the name it gives is one. -/
def Renaming (text : List Char) (n : Node) : Prop :=
  n.Tidy text ∧ (n.role = some .asName → n.IsName text)

/-- The level inside what is called by a name of its own. -/
def Naming (text : List Char) (n : Node) : Prop :=
  n.Renaming text ∧ (n.role = some .name → n.span.OnLine text)

variable {text : List Char}

theorem kind?_withRole (r : Role) (n : Node) : (n.withRole r).kind? = n.kind? := by
  cases n <;> rfl

theorem children_withRole (r : Role) (n : Node) : (n.withRole r).children = n.children := by
  cases n <;> rfl

/-- A node plays no other part than the one it is given. -/
theorem role_withRole_ne {r q : Role} (h : q ≠ r) (n : Node) : (n.withRole r).role ≠ some q := by
  cases n with
  | comment s => simp [withRole, role]
  | mk k o s cs =>
    rintro ⟨⟩
    exact h rfl

theorem Fresh.isName {n : Node} (h : n.Fresh text) (hk : n.kind? = some .identifier) :
    n.IsName text :=
  h.tidy.own hk

end Node

open Node in
instance (text : List Char) : Level text (InString text) where
  tidy := And.left
  fresh h := ⟨h.tidy, fun hk => absurd hk h.whole⟩

open Node in
instance (text : List Char) : Level text (InPair text) where
  tidy := And.left
  fresh h := ⟨h.tidy, h.plain⟩

open Node in
instance (text : List Char) : Level text (Renaming text) where
  tidy := And.left
  fresh h := ⟨h.tidy, by simp [h.role]⟩

open Node in
instance (text : List Char) : Level text (Naming text) where
  tidy h := h.1.1
  fresh h := ⟨⟨h.tidy, by simp [h.role]⟩, by simp [h.role]⟩

/-- A function, or a kind of which nothing is asked. -/
@[reducible] def Kind.isFunction : Kind → Bool
  | .functionDeclaration => true
  | k => k.isFree

theorem isToken_of_isFunction {k : Kind} (hk : k.isFunction = true) : k.isToken = false := by
  unfold Kind.isFunction at hk
  split at hk
  · rfl
  · exact isToken_of_isFree hk

theorem fresh_function {text : List Char} {k : Kind} (hk : k.isFunction = true) {span : Span}
    {cs : List Node} (hcs : ∀ c ∈ cs, c.Naming text) : Node.Fresh text (.mk k none span cs) := by
  have htidy : ∀ c ∈ cs, c.Tidy text := fun c hc => (hcs c hc).1.1
  unfold Kind.isFunction at hk
  split at hk
  · exact fresh_mk (by decide) (by decide) (fun c hc => (hcs c hc).2) htidy
  · exact fresh_of_isFree text hk span htidy

/-- Every phrase keeps what holds of fresh nodes. -/
class Lawful (text : List Char) (g : Phrases) : Prop where
  keeps (goal : Goal) {Q : Node → Prop} [Level text Q] : Reader.Keeps text Q (g goal)

namespace Reader

open Node

variable {text : List Char} {Q : Node → Prop} {g : Phrases}

instance (r : Role) : Marks (InPair text) r where
  marks h := ⟨h.1.withRole r, by
    rw [kind?_withRole, IsPlain, children_withRole]
    exact h.2⟩

theorem marks_renaming {r : Role} (h : .asName ≠ r) : Marks (Renaming text) r where
  marks {n} hn := ⟨hn.1.withRole r, fun hr => absurd hr (role_withRole_ne h n)⟩

theorem marks_naming {r : Role} (h : .asName ≠ r) (h' : .name ≠ r) : Marks (Naming text) r where
  marks {n} hn := ⟨(marks_renaming h).marks hn.1, fun hr => absurd hr (role_withRole_ne h' n)⟩

instance : Marks (Renaming text) .name := marks_renaming (by decide)

instance : Marks (Naming text) .parameters := marks_naming (by decide) (by decide)

instance : Marks (Naming text) .returns := marks_naming (by decide) (by decide)

instance (r : Role) : Names text (Renaming text) r where
  names {n} h hk := ⟨h.tidy.withRole r, fun _ => by
    rw [IsName, span_withRole]
    exact h.isName hk⟩

instance (r : Role) : Names text (Naming text) r where
  names {n} h hk := ⟨Names.names h hk, fun _ => by
    rw [span_withRole]
    exact (h.isName hk).1⟩

instance keeps_beyondGroup : Keeps text Q beyondGroup := keeps_of_same fun {s a t} h => by
  unfold beyondGroup at h
  dsimp only at h
  split at h
  · cases h
    rfl
  · split at h <;> cases h <;> rfl

variable [Level text Q]

set_option synthInstance.maxSize 10000

/-! Ends of statements, and words after dots. -/

omit [Level text Q] in
theorem of_lineComment {s t : State} {u : Unit} (h : lineComment s = some (u, t)) :
    ∃ gap n, t = (s.skip gap).takeComment n := by
  unfold lineComment at h
  dsimp only at h
  split at h
  · cases h
  · cases h
    exact ⟨_, _, rfl⟩

instance keeps_lineComment : Keeps text Q lineComment where
  keeps hs hp := by
    obtain ⟨gap, n, rfl⟩ := of_lineComment hp
    exact (hs.skip gap).takeComment n
  laysOut _ _ _ _ hs hp := by
    obtain ⟨gap, n, rfl⟩ := of_lineComment hp
    exact (hs.skip gap).takeComment n

instance keeps_understoodUpTo (f : Follow) (n : Nat) : Keeps text Q (understoodUpTo f n) := by
  induction n with
  | zero => exact keeps_failure
  | succ n ih =>
    unfold understoodUpTo
    infer_instance

instance keeps_understood (f : Follow) : Keeps text Q (understood f) where
  keeps hs hp := (keeps_understoodUpTo f _).keeps hs hp
  laysOut := by
    intro start s a t hs hp
    have h : Keeps text Q (understoodUpTo f (s.rest.length + 1)) := inferInstance
    exact h.laysOut hs hp

instance keeps_semicolon (f : Follow) : Keeps text Q (semicolon f) := by
  unfold semicolon
  infer_instance

instance keeps_onward (line : Bool) (f : Follow) : Keeps text Q (onward line f) := by
  unfold onward
  infer_instance

instance keeps_memberName : Keeps text Q memberName := by
  unfold memberName
  -- a rule that looks ahead and then branches: instances do not see through the match
  refine keeps_bind_of fun cs => ?_
  split <;> infer_instance

/-! Literals. -/

instance keeps_escape : Keeps text Q escape := by
  unfold escape
  infer_instance

instance keeps_fragmentUntil_quote (quote : Char) : Keeps text (InString text)
    (fragmentUntil fun c => c = quote || c = '\\' || c = '\r' || c = '\n') where
  keeps := by
    intro s a t hs hp
    change run .fragment _ s = _ at hp
    rw [(of_run hp).2]
    refine hs.take ⟨.mk trivial (by simp), fun _ => ?_⟩
    rw [Span.OnLine]
    change '\n' ∉ Span.cut ⟨s.pos, s.pos + _⟩ text
    rw [hs.cut_take]
    exact not_mem_take_takeWhile (by simp) _
  laysOut _ _ _ _ hs hp := laysOut_run .fragment _ hs hp

instance keeps_stringWith (quote : Char) (mark : String) : Keeps text Q (stringWith quote mark) := by
  unfold stringWith
  refine keeps_node_of (R := InString text) rfl fun span cs hcs => ?_
  have hfresh : Fresh text (.mk .string none span cs) :=
    { tidy := .mk trivial fun c hc => (hcs c hc).1
      role := rfl
      whole := by simp [kind?]
      plain := fun _ c hc => (hcs c hc).2 }
  exact Level.fresh hfresh

instance keeps_string : Keeps text Q string := by
  unfold string
  infer_instance

instance keeps_number : Keeps text Q number := by
  unfold number
  infer_instance

instance keeps_regex : Keeps text Q regex := by
  unfold regex
  infer_instance

instance keeps_template {k : Kind} [Known k.isFree] (escapes : Bool) (inside : Reader Unit)
    [Keeps text (Node.Tidy text) inside] : Keeps text Q (template k escapes inside) := by
  unfold template
  infer_instance

instance keeps_propertyName (e : Reader Unit) [Keeps text (Node.Tidy text) e] :
    Keeps text Q (propertyName e) := by
  unfold propertyName
  refine keeps_bind_of fun cs => ?_
  split <;> infer_instance

variable [Lawful text g]

instance (priority := low) keeps_phrase (goal : Goal) : Keeps text Q (g goal) := Lawful.keeps goal

/-! Patterns, parameters and signatures. -/

instance keeps_initializer (at_ : Setting) : Keeps text Q (initializer g at_) := by
  unfold initializer
  infer_instance

instance keeps_ascription (line : Bool) : Keeps text Q (ascription g line) := by
  unfold ascription
  infer_instance

instance keeps_spread : Keeps text Q (spread g) := by
  unfold spread
  infer_instance

instance keeps_arguments : Keeps text Q (arguments g) := by
  unfold arguments
  infer_instance

instance keeps_decorator : Keeps text Q (decorator g) := by
  unfold decorator
  infer_instance

instance keeps_leftHand : Keeps text Q (leftHand g) := by
  unfold leftHand
  infer_instance

instance keeps_restPattern : Keeps text Q (restPattern g) := by
  unfold restPattern
  infer_instance

instance keeps_withDefault (p : Reader Unit) [Keeps text Q p] : Keeps text Q (withDefault g p) := by
  unfold withDefault
  infer_instance

instance keeps_objectPattern : Keeps text Q (objectPattern g) := by
  unfold objectPattern
  infer_instance

instance keeps_arrayPattern : Keeps text Q (arrayPattern g) := by
  unfold arrayPattern
  infer_instance

instance keeps_destructuring : Keeps text Q (destructuring g) := by
  unfold destructuring
  infer_instance

instance keeps_pattern : Keeps text Q (pattern g) := by
  unfold pattern
  refine keeps_bind_of fun cs => ?_
  split <;> infer_instance

instance keeps_parameterModifier (w : String) : Keeps text Q (parameterModifier w) := by
  unfold parameterModifier
  infer_instance

instance keeps_parameterName : Keeps text (Node.Tidy text) (parameterName g) := by
  unfold parameterName
  infer_instance

instance keeps_parameter : Keeps text Q (parameter g) := by
  unfold parameter
  infer_instance

instance keeps_parameters : Keeps text Q (parameters g) := by
  unfold parameters
  infer_instance

instance keeps_typeParameter : Keeps text Q (typeParameter g) := by
  unfold typeParameter
  infer_instance

instance keeps_typeParameters : Keeps text Q (typeParameters g) := by
  unfold typeParameters
  infer_instance

instance keeps_predicate (line : Bool) : Keeps text Q (predicate g line) := by
  unfold predicate
  infer_instance

instance keeps_assertion (line : Bool) : Keeps text Q (assertion g line) := by
  unfold assertion
  infer_instance

instance keeps_resultType (line : Bool) : Keeps text Q (resultType g line) := by
  unfold resultType
  infer_instance

instance keeps_result [Marks Q .returns] (line : Bool) : Keeps text Q (result g line) := by
  unfold result
  infer_instance

instance keeps_signature [Marks Q .parameters] [Marks Q .returns] (at_ : Setting) :
    Keeps text Q (signature g at_) := by
  unfold signature
  infer_instance

/-! Types. -/

instance keeps_typeArguments : Keeps text Q (typeArguments g) := by
  unfold typeArguments
  infer_instance

instance keeps_memberModifier (w : String) : Keeps text Q (memberModifier w) := by
  unfold memberModifier
  infer_instance

instance keeps_accessModifier : Keeps text Q accessModifier := by
  unfold accessModifier
  infer_instance

instance keeps_indexAscription : Keeps text Q (indexAscription g) := by
  unfold indexAscription
  infer_instance

instance keeps_indexSignature : Keeps text Q (indexSignature g) := by
  unfold indexSignature
  infer_instance

instance keeps_constructSignature : Keeps text Q (constructSignature g) := by
  unfold constructSignature
  infer_instance

instance keeps_memberSignature : Keeps text Q (memberSignature g) := by
  unfold memberSignature
  dsimp only
  infer_instance

instance keeps_memberType : Keeps text Q (memberType g) := by
  unfold memberType
  infer_instance

instance keeps_memberEnd : Keeps text Q memberEnd := by
  unfold memberEnd
  infer_instance

instance keeps_objectType : Keeps text Q (objectType g) := by
  unfold objectType
  infer_instance

instance keeps_tupleMember : Keeps text Q (tupleMember g) := by
  unfold tupleMember
  infer_instance

instance keeps_tupleType : Keeps text Q (tupleType g) := by
  unfold tupleType
  infer_instance

instance keeps_functionType (line : Bool) : Keeps text Q (functionType g line) := by
  unfold functionType
  infer_instance

instance keeps_constructorType (line : Bool) : Keeps text Q (constructorType g line) := by
  unfold constructorType
  infer_instance

instance keeps_queried (line : Bool) : Keeps text Q (queried g line) := by
  unfold queried
  infer_instance

instance keeps_importedType : Keeps text Q (importedType g) := by
  unfold importedType
  infer_instance

instance keeps_namedType : Keeps text Q (namedType g) := by
  unfold namedType
  infer_instance

instance keeps_signedNumber : Keeps text Q signedNumber := by
  unfold signedNumber
  infer_instance

instance keeps_plainType (line : Bool) : Keeps text Q (plainType g line) := by
  unfold plainType
  refine keeps_bind_of fun c => ?_
  split <;> try infer_instance
  refine @keeps_ite _ _ _ _ _ _ _ inferInstance ?_
  refine keeps_bind_of fun w => ?_
  split <;> infer_instance

instance keeps_typeTrailers (line : Bool) : Keeps text Q (typeTrailers g line) := by
  unfold typeTrailers
  infer_instance

instance keeps_typeOperand (line : Bool) : Keeps text Q (typeOperand g line) := by
  unfold typeOperand
  dsimp only
  refine keeps_bind_of fun c => ?_
  split <;> try infer_instance
  refine keeps_bind_of fun w => ?_
  split <;> infer_instance

instance keeps_typeTerm (line : Bool) : Keeps text Q (typeTerm g line) := by
  unfold typeTerm
  dsimp only
  infer_instance

/-! Markup elements. -/

theorem not_mem_take_tagNameLength (cs : List Char) : '\n' ∉ cs.take (tagNameLength cs) := by
  unfold tagNameLength
  split
  · simp
  · rw [List.take_add, List.mem_append, not_or]
    exact ⟨not_mem_take_nameLength cs, not_mem_take_takeWhile (by decide) _⟩

instance keeps_tagName : Keeps text Q tagName where
  keeps := by
    intro s a t hs hp
    obtain ⟨n, ns, hf, -, hn, ht⟩ := of_identifier rfl not_mem_take_tagNameLength hs.skipGaps hp
    exact holds_of_fresh hf hn ht
  laysOut := laysOut_gaps_run .identifier tagNameLength

instance keeps_reference : Keeps text Q reference := by
  unfold reference
  infer_instance

/-- A string of an attribute may hold line breaks. -/
instance keeps_attributeString (quote : Char) (mark : String) :
    Keeps text (Node.Tidy text) (attributeString quote mark) := by
  unfold attributeString
  exact keeps_node_of rfl fun span cs hcs => Tidy.mk trivial hcs

instance keeps_embedded : Keeps text Q (embedded g) := by
  unfold embedded
  infer_instance

instance keeps_tagAttribute : Keeps text Q (tagAttribute g) := by
  unfold tagAttribute
  infer_instance

instance keeps_elementName : Keeps text Q elementName := by
  unfold elementName
  infer_instance

instance keeps_closingTag : Keeps text Q closingTag := by
  unfold closingTag
  infer_instance

instance keeps_child : Keeps text Q (child g) := by
  unfold child
  infer_instance

instance keeps_element : Keeps text Q (element g) := by
  unfold element
  infer_instance

/-! Expressions. -/

instance keeps_operator (ts : List String) : Keeps text Q (operator ts) := by
  unfold operator
  refine keeps_bind_of fun cs => ?_
  split <;> infer_instance

instance keeps_expressions (at_ : Setting) : Keeps text Q (expressions g at_) := by
  unfold expressions
  infer_instance

instance keeps_parenthesized : Keeps text Q (parenthesized g) := by
  unfold parenthesized
  infer_instance

instance keeps_array : Keeps text Q (array g) := by
  unfold array
  infer_instance

instance keeps_methodModifier (w : String) : Keeps text Q (methodModifier w) := by
  unfold methodModifier
  infer_instance

instance keeps_method : Keeps text Q (method g) := by
  unfold method
  infer_instance

instance keeps_pair : Keeps text Q (pair g) := by
  unfold pair
  refine keeps_node_of (R := InPair text) rfl fun span cs hcs => ?_
  have hown : TidyAs text span cs .pair := fun c hc => (hcs c hc).2
  exact Level.fresh (fresh_mk (by decide) (by decide) hown fun c hc => (hcs c hc).1)

instance keeps_object : Keeps text Q (object g) := by
  unfold object
  infer_instance

instance keeps_functionExpression : Keeps text Q (functionExpression g) := by
  unfold functionExpression
  infer_instance

instance keeps_arrowBody (at_ : Setting) : Keeps text Q (arrowBody g at_) := by
  unfold arrowBody
  infer_instance

instance keeps_loneParameter : Keeps text (Node.Tidy text) loneParameter := by
  unfold loneParameter
  infer_instance

instance keeps_loneArrow (at_ : Setting) : Keeps text Q (loneArrow g at_) := by
  unfold loneArrow
  infer_instance

instance keeps_listArrow (at_ : Setting) : Keeps text Q (listArrow g at_) := by
  unfold listArrow
  infer_instance

instance keeps_parametersAhead (at_ : Setting) : Keeps text Q (parametersAhead at_) := by
  unfold parametersAhead
  refine keeps_bind_of fun cs => ?_
  split <;> infer_instance

instance keeps_asyncFunction (at_ : Setting) : Keeps text Q (asyncFunction g at_) := by
  unfold asyncFunction
  infer_instance

instance keeps_importExpression : Keeps text Q importExpression := by
  unfold importExpression
  infer_instance

instance keeps_primary (c : Reader Unit) [Keeps text Q c] (at_ : Setting) :
    Keeps text Q (primary g c at_) := by
  unfold primary
  refine keeps_bind_of fun c => ?_
  split <;> try infer_instance
  refine @keeps_ite _ _ _ _ _ _ _ inferInstance ?_
  refine keeps_bind_of fun w => ?_
  split <;> infer_instance

instance keeps_templateCall : Keeps text Q (templateCall g) := by
  unfold templateCall
  infer_instance

instance keeps_memberAccess : Keeps text Q memberAccess := by
  unfold memberAccess
  infer_instance

instance keeps_indexAccess : Keeps text Q (indexAccess g) := by
  unfold indexAccess
  infer_instance

instance keeps_nonNull : Keeps text Q nonNull := by
  unfold nonNull
  infer_instance

instance keeps_optionalAccess : Keeps text Q (optionalAccess g) := by
  unfold optionalAccess
  infer_instance

instance keeps_compares : Keeps text Q compares := by
  unfold compares
  infer_instance

instance keeps_appliedTypes : Keeps text Q (appliedTypes g) := by
  unfold appliedTypes
  infer_instance

instance keeps_typedCall : Keeps text Q (typedCall g) := by
  unfold typedCall
  infer_instance

instance keeps_call : Keeps text Q (call g) := by
  unfold call
  infer_instance

instance keeps_trailers (at_ : Setting) : Keeps text Q (trailers g at_) := by
  unfold trailers
  infer_instance

instance keeps_constructed (c : Reader Unit) [Keeps text Q c] : Keeps text Q (constructed g c) := by
  unfold constructed
  dsimp only
  infer_instance

instance keeps_construction (c : Reader Unit) [Keeps text (Node.Tidy text) c] :
    Keeps text Q (construction g c) := by
  unfold construction
  infer_instance

instance keeps_metaProperty : Keeps text Q metaProperty := by
  unfold metaProperty
  infer_instance

instance keeps_angled (d : Dialect) (at_ : Setting) : Keeps text Q (angled g d at_) := by
  unfold angled
  cases d <;> infer_instance

instance keeps_chain (d : Dialect) (c : Reader Unit) [Keeps text Q c] (at_ : Setting) :
    Keeps text Q (chain g d c at_) := by
  unfold chain
  infer_instance

instance keeps_update (at_ : Setting) : Keeps text Q (update at_) := by
  unfold update
  infer_instance

instance keeps_assignable : Keeps text Q assignable := by
  unfold assignable
  infer_instance

instance keeps_assignment (at_ : Setting) : Keeps text Q (assignment g at_) := by
  unfold assignment
  infer_instance

instance keeps_patternAssignment (at_ : Setting) : Keeps text Q (patternAssignment g at_) := by
  unfold patternAssignment
  infer_instance

instance keeps_unary (at_ : Setting) : Keeps text Q (unary g at_) := by
  unfold unary
  infer_instance

instance keeps_cast (at_ : Setting) : Keeps text Q (cast g at_) := by
  unfold cast
  infer_instance

instance keeps_awaited (at_ : Setting) : Keeps text Q (awaited g at_) := by
  unfold awaited
  infer_instance

instance keeps_yielded (at_ : Setting) : Keeps text Q (yielded g at_) := by
  unfold yielded
  infer_instance

instance keeps_usingAssignment (at_ : Setting) : Keeps text Q (usingAssignment g at_) := by
  unfold usingAssignment
  infer_instance

instance keeps_privateName : Keeps text Q privateName := by
  unfold privateName
  infer_instance

instance keeps_operand (d : Dialect) (at_ : Setting) : Keeps text Q (operand g d at_) := by
  unfold operand
  dsimp only
  refine keeps_bind_of fun c => ?_
  split <;> try infer_instance
  refine @keeps_ite _ _ _ _ _ _ _ inferInstance ?_
  refine keeps_bind_of fun w => ?_
  split <;> infer_instance

instance keeps_choiceMark : Keeps text Q choiceMark := by
  unfold choiceMark
  refine keeps_bind_of fun _ => keeps_bind_of fun cs => ?_
  split <;> infer_instance

instance keeps_choice (at_ : Setting) : Keeps text Q (choice g at_) := by
  unfold choice
  infer_instance

instance keeps_binary (at_ : Setting) : Keeps text Q (binary g at_) := by
  unfold binary
  infer_instance

instance keeps_expression (at_ : Setting) : Keeps text Q (expression g at_) := by
  unfold expression
  infer_instance

/-! Classes. -/

instance keeps_heritage : Keeps text Q (heritage g) := by
  unfold heritage
  infer_instance

instance keeps_fieldOrMethod : Keeps text Q (fieldOrMethod g) := by
  unfold fieldOrMethod
  refine @keeps_node _ _ _ _ _ _ ?_
  repeat refine keeps_bind_of fun _ => ?_
  infer_instance

instance keeps_classMember : Keeps text Q (classMember g) := by
  unfold classMember
  infer_instance

instance keeps_classFrom (named : Bool) : Keeps text (Node.Tidy text) (classFrom g named) := by
  unfold classFrom
  dsimp only
  infer_instance

instance keeps_classExpression : Keeps text Q (classExpression g) := by
  unfold classExpression
  infer_instance

instance keeps_classDeclaration : Keeps text Q (classDeclaration g) := by
  unfold classDeclaration
  infer_instance

/-! Imports. -/

instance keeps_fromClause : Keeps text (Node.Tidy text) fromClause := by
  unfold fromClause
  infer_instance

instance keeps_typeMark : Keeps text Q typeMark := by
  unfold typeMark
  infer_instance

instance keeps_specifierName : Keeps text (Node.Tidy text) specifierName := by
  unfold specifierName
  infer_instance

/-- What is found in a specifier: the name that it gives, or that it has. -/
def Specifies (text : List Char) (s : State) : Prop :=
  s.Holds text (Renaming text) ∧
    ((∃ n ∈ s.found, n.role = some .asName) ∨ s.Holds text (Naming text))

theorem of_specifierName {s t : State} {u : Unit} (hs : s.Holds text (Naming text))
    (hp : specifierName s = some (u, t)) : Specifies text t := by
  unfold specifierName at hp
  rcases Option.or_eq_some_iff.mp hp with hp | ⟨-, hp⟩
  · have ht : t.Holds text (Naming text) := Keeps.keeps hs hp
    exact ⟨⟨ht.rest, fun n hn => (ht.found n hn).1⟩, .inr ht⟩
  · have hr : s.Holds text (Renaming text) := ⟨hs.rest, fun n hn => (hs.found n hn).1⟩
    obtain ⟨⟨_, s'⟩, hp', hp⟩ := Option.bind_eq_some_iff.mp hp
    obtain ⟨⟨_, s''⟩, hp'', hp⟩ := Option.bind_eq_some_iff.mp hp
    have hr' : s'.Holds text (Renaming text) := Keeps.keeps hr hp'
    have hr'' : s''.Holds text (Renaming text) := Keeps.keeps hr' hp''
    obtain ⟨ht, hn⟩ := of_playing_name hr'' hp
    exact ⟨ht, .inl hn⟩

theorem Specifies.tidyAs {s : State} (h : Specifies text s) (span : Span) :
    TidyAs text span s.found.reverse .importSpecifier := by
  simp only [TidyAs, List.mem_reverse]
  refine ⟨fun c hc => (h.1.found c hc).2, ?_⟩
  rcases h.2 with h | h
  · exact .inl h
  · exact .inr fun c hc => (h.found c hc).2

instance keeps_importSpecifier : Keeps text Q importSpecifier := by
  have hl : Keeps text (Node.Tidy text) (do
      (do typeMark; specifierName) <|> specifierName
      return Kind.importSpecifier) := inferInstance
  refine keeps_nodeOf_of (R := Naming text) hl.laysOut (fun s k t hp => ?_)
    fun {s k t} hs hp => ?_
  · obtain ⟨⟨_, u⟩, -, hk⟩ := Option.bind_eq_some_iff.mp hp
    cases hk
    rfl
  · obtain ⟨⟨_, u⟩, hu, hk⟩ := Option.bind_eq_some_iff.mp hp
    cases hk
    have ht : Specifies text u := by
      rcases Option.or_eq_some_iff.mp hu with hu | ⟨-, hu⟩
      · obtain ⟨⟨_, v⟩, hv, hu⟩ := Option.bind_eq_some_iff.mp hu
        have hs' : v.Holds text (Naming text) := Keeps.keeps hs hv
        exact of_specifierName hs' hu
      · exact of_specifierName hs hu
    refine ⟨ht.1.rest, fun span =>
      Level.fresh (fresh_mk (by decide) (by decide) (ht.tidyAs span) ?_)⟩
    intro c hc
    exact (ht.1.found c (List.mem_reverse.mp hc)).1

instance keeps_namedImports : Keeps text Q namedImports := by
  unfold namedImports
  infer_instance

instance keeps_namespaceImport : Keeps text Q namespaceImport := by
  unfold namespaceImport
  infer_instance

instance keeps_importClause : Keeps text Q importClause := by
  unfold importClause
  infer_instance

instance keeps_requireClause : Keeps text Q requireClause := by
  unfold requireClause
  infer_instance

instance keeps_importBody : Keeps text (Node.Tidy text) importBody := by
  unfold importBody
  infer_instance

instance keeps_importAttributes : Keeps text Q (importAttributes g) := by
  unfold importAttributes
  infer_instance

instance keeps_importStatement : Keeps text Q (importStatement g) := by
  unfold importStatement
  infer_instance

instance keeps_dottedName : Keeps text Q dottedName := by
  unfold dottedName
  infer_instance

instance keeps_importAlias : Keeps text Q importAlias := by
  unfold importAlias
  infer_instance

/-! Statements. -/

instance keeps_block : Keeps text Q (block g) := by
  unfold block
  infer_instance

omit [Level text Q] in
instance keeps_valueFollow : Keeps text Q valueFollow := keeps_of_same fun {s a t} h => by
  obtain ⟨n, -, hn⟩ := Option.map_eq_some_iff.mp h
  cases hn
  rfl

instance keeps_bound (reserved : List String) : Keeps text (Node.Tidy text) (bound g reserved) := by
  unfold bound
  infer_instance

instance keeps_declarator (reserved : List String) : Keeps text Q (declarator g reserved) := by
  unfold declarator
  infer_instance

instance keeps_declarators (reserved : List String) : Keeps text Q (declarators g reserved) := by
  unfold declarators
  infer_instance

instance keeps_variableStatement : Keeps text Q (variableStatement g) := by
  unfold variableStatement
  infer_instance

instance keeps_functionDeclaration : Keeps text Q (functionDeclaration g) := by
  unfold functionDeclaration
  refine keeps_nodeOf_sort (K := Kind.isFunction) (R := Naming text) (fun _ => isToken_of_isFunction)
    fun k hk span cs hcs => ?_
  exact Level.fresh (fresh_function hk hcs)

instance keeps_interfaceDeclaration : Keeps text Q (interfaceDeclaration g) := by
  unfold interfaceDeclaration
  infer_instance

instance keeps_enumMember : Keeps text Q (enumMember g) := by
  unfold enumMember
  infer_instance

instance keeps_enumDeclaration : Keeps text Q (enumDeclaration g) := by
  unfold enumDeclaration
  infer_instance

instance keeps_aliasDeclaration : Keeps text Q (aliasDeclaration g) := by
  unfold aliasDeclaration
  infer_instance

instance keeps_namespaceDeclaration : Keeps text Q (namespaceDeclaration g) := by
  unfold namespaceDeclaration
  infer_instance

instance keeps_declarationAt (p : Reader Unit) [Keeps text Q p] :
    Keeps text Q (declarationAt g p) := by
  unfold declarationAt
  refine keeps_bind_of fun c => ?_
  refine @keeps_ite _ _ _ _ _ _ _ inferInstance ?_
  refine keeps_bind_of fun w => ?_
  split <;> infer_instance

instance keeps_ambientDeclaration : Keeps text Q (ambientDeclaration g) := by
  unfold ambientDeclaration
  infer_instance

instance keeps_declaration : Keeps text Q (declaration g) := by
  unfold declaration
  infer_instance

instance keeps_exportedName : Keeps text Q exportedName := by
  unfold exportedName
  infer_instance

instance keeps_exportSpecifier : Keeps text Q exportSpecifier := by
  unfold exportSpecifier
  infer_instance

instance keeps_exportClause : Keeps text Q exportClause := by
  unfold exportClause
  infer_instance

instance keeps_exportDefault : Keeps text (Node.Tidy text) (exportDefault g) := by
  unfold exportDefault
  infer_instance

instance keeps_exportStatement : Keeps text Q (exportStatement g) := by
  unfold exportStatement
  infer_instance

instance keeps_expressionStatement : Keeps text Q (expressionStatement g) := by
  unfold expressionStatement
  infer_instance

instance keeps_ifStatement : Keeps text Q (ifStatement g) := by
  unfold ifStatement
  infer_instance

instance keeps_loopHead : Keeps text (Node.Tidy text) (loopHead g) := by
  unfold loopHead
  infer_instance

instance keeps_countingHead : Keeps text Q (countingHead g) := by
  unfold countingHead
  infer_instance

instance keeps_forStatement : Keeps text Q (forStatement g) := by
  unfold forStatement
  infer_instance

instance keeps_switchCase : Keeps text Q (switchCase g) := by
  unfold switchCase
  infer_instance

instance keeps_switchStatement : Keeps text Q (switchStatement g) := by
  unfold switchStatement
  infer_instance

instance keeps_tryStatement : Keeps text Q (tryStatement g) := by
  unfold tryStatement
  infer_instance

instance keeps_doStatement : Keeps text Q (doStatement g) := by
  unfold doStatement
  infer_instance

instance keeps_jumpStatement : Keeps text Q jumpStatement := by
  unfold jumpStatement
  infer_instance

instance keeps_returnStatement : Keeps text Q (returnStatement g) := by
  unfold returnStatement
  infer_instance

instance keeps_throwStatement : Keeps text Q (throwStatement g) := by
  unfold throwStatement
  infer_instance

instance keeps_guardedStatement (w : String) : Keeps text Q (guardedStatement g w) := by
  unfold guardedStatement
  infer_instance

instance keeps_labelled : Keeps text Q (labelled g) := by
  unfold labelled
  infer_instance

instance keeps_statement : Keeps text Q (statement g) := by
  unfold statement
  refine keeps_bind_of fun c => ?_
  split <;> try infer_instance
  refine keeps_bind_of fun w => ?_
  split <;> infer_instance

instance keeps_interpreterLine : Keeps text Q interpreterLine := by
  unfold interpreterLine
  infer_instance

instance keeps_pageComment : Keeps text Q pageComment := by
  unfold pageComment
  infer_instance

instance keeps_program : Keeps text Q (program g) := by
  unfold program
  infer_instance

end Reader

/-! The grammar. -/

instance lawful_step {text : List Char} {g : Phrases} [Lawful text g] (d : Dialect) :
    Lawful text (step d g) where
  keeps goal := by
    -- the instance of each goal's rule was found from that of the phrases below it
    cases goal <;> unfold step <;> infer_instance

instance lawful_phrases {text : List Char} (d : Dialect) (n : Nat) : Lawful text (phrases d n) := by
  induction n with
  | zero => exact ⟨fun _ => Reader.keeps_failure⟩
  | succ n ih => exact lawful_step d

theorem laidOut_of_parse {d : Dialect} {text : List Char} {root : Node}
    (h : parse d text = some root) : root.LaidOut := by
  obtain ⟨⟨u, t⟩, ht, hf⟩ := Option.bind_eq_some_iff.mp h
  have hp : Reader.Keeps text (Node.Tidy text)
      (Reader.program (phrases d (8 * text.length + 64))) := inferInstance
  have hs : State.LaidOut 0 ⟨text, 0, []⟩ := ⟨Nat.le_refl 0, by simp⟩
  exact (hp.laysOut hs ht).found root (List.mem_of_mem_head? hf)

theorem tidy_of_parse {d : Dialect} {text : List Char} {root : Node}
    (h : parse d text = some root) : root.Tidy text := by
  obtain ⟨⟨u, t⟩, ht, hf⟩ := Option.bind_eq_some_iff.mp h
  have hs : State.Holds text (Node.Tidy text) ⟨text, 0, []⟩ := ⟨rfl, by simp⟩
  have ht : t.Holds text (Node.Tidy text) := Reader.Keeps.keeps hs ht
  exact ht.found root (List.mem_of_mem_head? hf)

end ConventionLint.Source

namespace ConventionLint.Module

/-- A module's tree is that of its text. -/
theorem root_of_parse {m : Module} {text path : String} (h : parse text path = .ok m) :
    m.text = text.toList ∧ ∃ d, Source.parse d m.text = some m.root := by
  unfold parse at h
  split at h
  · cases h
  · split at h
    · cases h
    · rename_i hp
      cases h
      exact ⟨rfl, _, hp⟩

end ConventionLint.Module
