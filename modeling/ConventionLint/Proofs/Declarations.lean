import Mathlib.Data.List.Nodup
import ConventionLint.Proofs.PrintedMembers

/-! A text written from declarations of object types. Each alias is found with the members it is
declared with, and no other alias is found. -/
namespace ConventionLint.ObjectType

open Text

variable {name u v w x z : List Char} {exported marked : Bool} {before : Option Char} {c : Char}

/-- An alias: letters, digits and underscores. -/
structure IsAlias (n : List Char) : Prop where
  ne_nil : n ≠ []
  chars : n.all isWord = true

instance (n : List Char) : Decidable (IsAlias n) :=
  decidable_of_iff (n ≠ [] ∧ n.all isWord = true)
    ⟨fun h => ⟨h.1, h.2⟩, fun h => ⟨h.ne_nil, h.chars⟩⟩

/-- One declaration of an object type. -/
structure Declaration where
  exported : Bool := false
  typeName : String
  members : List Member
  marked : Bool := true
  isAlias : IsAlias typeName.toList

namespace Declaration

/-- The text `type alias = {`. -/
def opening (d : Declaration) : List Char :=
  ['t', 'y', 'p', 'e', ' '] ++ (d.typeName.toList ++ [' ', '=', ' ', '{'])

/-- The text `[export ]type alias = { member; member; };`. -/
def text (d : Declaration) : List Char :=
  (if d.exported then "export ".toList else []) ++
    (d.opening ++ (spread d.marked d.members ++ ['}', ';']))

/-- What is declared. -/
def shape (d : Declaration) : ObjectType := ⟨d.typeName, d.members.map (·.toProperty)⟩

/-- Whether it declares the alias, and exports it if it has to. -/
def declares (typeName : String) (exported : Bool) (d : Declaration) : Bool :=
  d.typeName = typeName && (d.exported || !exported)

end Declaration

/-- Declarations on lines of their own. -/
def file (ending : List Char) : List Declaration → List Char
  | [] => ending
  | d :: ds => d.text ++ if ds.isEmpty then ending else '\n' :: file ending ds

def source (ending : List Char) (ds : List Declaration) : String := String.ofList (file ending ds)

/-- The text `typeof name`, with any blanks. -/
def IsTypeof (t name : List Char) : Prop :=
  ∃ c b, t = "typeof".toList ++ c :: (b ++ name) ∧ isBlank c = true ∧ AllBlank b ∧ IsName name

theorem IsAlias.isIdentifier (h : IsAlias name) : IsIdentifier name := by
  refine ⟨h.ne_nil, fun c hc => ?_⟩
  rw [isNameChar, List.all_eq_true.mp h.chars c hc, Bool.true_or]

theorem IsAlias.last (h : IsAlias name) : name.getLast?.any isWord = true := by
  cases hl : name.getLast? with
  | none => exact (h.ne_nil (List.getLast?_eq_none_iff.mp hl)).elim
  | some c => exact List.all_eq_true.mp h.chars c (List.mem_of_getLast? hl)

/-! No other declaration starts within one. -/

theorem IsIdentifier.quiet {n : List Char} (hn : IsIdentifier name) (h : IsIdentifier n)
    (hv : Halts v) : Quiet name exported n v := by
  refine quiet_of_halts hn (fun c hc hi => ?_) hv
  have hm : c ∈ n := hi.subset (by simp)
  rw [h.not_isBlank hm] at hc
  cases hc

theorem Member.quiet (hn : IsIdentifier name) (m : Member) (hw : Halts w) :
    Quiet name exported m.text w := by
  have htype : Quiet name exported m.typeText.toList w :=
    quiet_of_halts hn (fun c hc => m.isType.not_infix hc) hw
  have hcolon : ∀ v, Halts ((if m.optional then ['?'] else []) ++ [':', ' '] ++ v) := by
    intro v
    cases m.optional with
    | true => exact ⟨[], '?', _, rfl, allBlank_nil, by decide, by decide⟩
    | false => exact ⟨[], ':', _, rfl, allBlank_nil, by decide, by decide⟩
  refine Quiet.append ?_ htype
  refine Quiet.append ?_ (Quiet.append (hn.quiet m.isName.isIdentifier (hcolon _)) ?_)
  · cases m.readOnly with
    | true => exact quiet_of_isCalm (by decide)
    | false => exact quiet_nil
  · cases m.optional with
    | true => exact quiet_of_isCalm (by decide)
    | false => exact quiet_of_isCalm (by decide)

theorem quiet_spread (hn : IsIdentifier name) (l : List Member) (z : List Char) :
    Quiet name exported (spread marked l) ('}' :: z) := by
  induction l with
  | nil => exact quiet_of_isCalm (u := [' ']) (by decide)
  | cons m l ih =>
    have hspace : ∀ v, Quiet name exported [' '] v := fun v => quiet_of_isCalm (by decide)
    rw [spread]
    refine (hspace _).append (Quiet.append (m.quiet hn ?_) ?_)
    · split
      · exact ⟨[' '], '}', z, rfl, by decide, by decide, by decide⟩
      · exact ⟨[], ';', _, rfl, allBlank_nil, by decide, by decide⟩
    · split
      · exact hspace _
      · exact Quiet.append (u := [';']) (quiet_of_isCalm (by decide)) ih

namespace Declaration

theorem opens_opening (d : Declaration) : Opens d.typeName.toList d.opening :=
  ⟨' ', [], [' '], [' '], by simp [opening], by rfl, allBlank_nil, Or.inl (by decide), by decide,
    d.isAlias.last⟩

theorem declares_iff {typeName : String} {d : Declaration} : d.declares typeName exported = true ↔
    d.typeName = typeName ∧ (exported = true → d.exported = true) := by
  cases exported <;> simp [declares]

/-- The text opens its own alias only. -/
theorem eq_of_opens (hn : IsIdentifier name) (d : Declaration) (hx : Opens name x)
    (he : x ++ v = d.opening ++ w) : name = d.typeName.toList := by
  obtain ⟨c, b, p, b', rfl, -, hb, hp, -, -⟩ := hx
  obtain ⟨-, he⟩ : c = ' ' ∧ b ++ (name ++ (p ++ '=' :: (b' ++ '{' :: v)))
      = d.typeName.toList ++ ' ' :: ('=' :: ' ' :: '{' :: w) := by
    simpa [opening] using he
  have ht := congrArg trimLeft he
  rw [trimLeft_append hb, hn.trimLeft_append, d.isAlias.isIdentifier.trimLeft_append] at ht
  have hstop := isNameChar_head? hp (y := b' ++ '{' :: v)
  cases hp' : p ++ '=' :: (b' ++ '{' :: v) with
  | nil => simp at hp'
  | cons a y =>
    rw [hp'] at ht hstop
    exact (append_cons_inj hn.chars d.isAlias.isIdentifier.chars hstop (by decide) ht).1

theorem quiet_opening (hn : IsIdentifier name) (d : Declaration)
    (h : exported = false → name ≠ d.typeName.toList) (w : List Char) :
    Quiet name exported d.opening w := by
  have hhalts : Halts ([' ', '=', ' ', '{'] ++ w) :=
    ⟨[' '], '=', _, rfl, by decide, by decide, by decide⟩
  have hopen : d.opening
      = ['t'] ++ (['y', 'p', 'e', ' '] ++ (d.typeName.toList ++ [' ', '=', ' ', '{'])) := rfl
  rw [hopen]
  refine Quiet.append ?_ (Quiet.append (quiet_of_isCalm (by decide))
    (Quiet.append (hn.quiet d.isAlias.isIdentifier hhalts) (quiet_of_isCalm (by decide))))
  rintro s hs hst before x r hx he
  obtain rfl : s = ['t'] := by
    rcases List.suffix_cons_iff.mp hst with hst | hst
    · exact hst
    · exact (hs (List.suffix_nil.mp hst)).elim
  cases hx with
  | exported => simp at he
  | plain hx =>
    refine h rfl (eq_of_opens hn d hx (w := w) (v := r) ?_)
    rw [← he, hopen]
    simp

/-- In a declaration that is not the one looked for, nothing is found. -/
theorem quiet_text (hn : IsIdentifier name) (d : Declaration)
    (h : name = d.typeName.toList → exported = true ∧ d.exported = false) (z : List Char) :
    Quiet name exported d.text z := by
  have hopening : ∀ w, Quiet name exported d.opening w := by
    apply d.quiet_opening hn
    rintro rfl hname
    cases (h hname).1
  have hrest : Quiet name exported (spread d.marked d.members ++ ['}', ';']) z :=
    (quiet_spread hn d.members _).append (quiet_of_isCalm (by decide))
  refine Quiet.append ?_ ((hopening _).append hrest)
  cases hd : d.exported with
  | false => exact quiet_nil
  | true =>
    refine Quiet.append (u := ['e']) (v := "xport ".toList) ?_ (quiet_of_isCalm (by decide))
    rintro s hs hse before x r hx he
    obtain rfl : s = ['e'] := by
      rcases List.suffix_cons_iff.mp hse with hse | hse
      · exact hse
      · exact (hs (List.suffix_nil.mp hse)).elim
    cases hx with
    | plain hx =>
      obtain ⟨y, rfl⟩ := hx.exists_cons
      simp at he
    | @exported c b x _ _ hc hb hx =>
      obtain ⟨-, he⟩ : ' ' = c ∧
          d.opening ++ (spread d.marked d.members ++ '}' :: ';' :: z) = b ++ (x ++ r) := by
        simpa using he
      have ht := congrArg trimLeft he
      obtain ⟨y, rfl⟩ := hx.exists_cons
      rw [trimLeft_append hb, List.cons_append, trimLeft_cons (by rfl)] at ht
      have hname := eq_of_opens hn d hx ht.symm
      rw [(h hname).2] at hd
      cases hd

theorem search?_of_not_declares (hn : IsIdentifier name) (d : Declaration)
    (h : name = d.typeName.toList → exported = true ∧ d.exported = false) (z : List Char) :
    search? name exported before (d.text ++ z) = search? name exported (some ';') z := by
  have hq := d.quiet_text hn h z
  have ht : d.text = ((if d.exported then "export ".toList else []) ++
      (d.opening ++ (spread d.marked d.members ++ ['}']))) ++ [';'] := by
    simp only [text, List.append_assoc, List.singleton_append]
  rw [ht] at hq ⊢
  rw [List.append_assoc, List.singleton_append]
  exact search?_of_quiet hn hq

theorem search?_of_declares (d : Declaration) (h : exported = true → d.exported = true)
    (hb : before.any isNameChar = false) (z : List Char) :
    search? d.typeName.toList exported before (d.text ++ z)
      = some (spread d.marked d.members ++ '}' :: ';' :: z) := by
  have hn := d.isAlias.isIdentifier
  cases hd : d.exported with
  | true =>
    have hx : Declares d.typeName.toList exported before _ :=
      .exported (c := ' ') (by rfl) allBlank_nil d.opens_opening (Or.inr hb)
    have hs := ObjectType.search?_of_declares hn hx (spread d.marked d.members ++ '}' :: ';' :: z)
    simpa [text, hd] using hs
  | false =>
    obtain rfl : exported = false := by
      apply Bool.eq_false_iff.mpr
      intro he
      rw [h he] at hd
      cases hd
    have hs := ObjectType.search?_of_declares hn (.plain d.opens_opening hb)
      (spread d.marked d.members ++ '}' :: ';' :: z)
    simpa [text, hd] using hs

end Declaration

/-! The whole text. -/

theorem read?_spread (typeName : String) (marked : Bool) (l : List Member) (z : List Char) :
    read? typeName (spread marked l ++ '}' :: z) = some ⟨typeName, l.map (·.toProperty)⟩ := by
  rw [read?_of_isBalanced (isBalanced_spread marked l), dropComments_spread, splitMembers_spread,
    filterMap_member?_text]

theorem search?_of_allBlank (hn : IsIdentifier name) (h : AllBlank u) :
    search? name exported before u = none := by
  rw [Option.eq_none_iff_forall_ne_some]
  intro r hr
  obtain ⟨a, b, x, rfl, hx⟩ := exists_of_search? hn hr
  obtain ⟨c, d, y, rfl, hs⟩ := hx.exists_cons
  have hb : isBlank c = true := h c (by simp)
  simp only [isStart, Bool.or_eq_true, Bool.and_eq_true, decide_eq_true_eq] at hs
  rcases hs with ⟨rfl, -⟩ | ⟨rfl, -⟩ <;> cases hb

theorem bind_search?_file {typeName : String} (hn : IsIdentifier typeName.toList)
    {ending : List Char} (he : AllBlank ending) (hb : before.any isNameChar = false)
    (ds : List Declaration) :
    (search? typeName.toList exported before (file ending ds)).bind (read? typeName)
      = (ds.find? (Declaration.declares typeName exported)).map Declaration.shape := by
  induction ds generalizing before with
  | nil =>
    rw [file, search?_of_allBlank hn he]
    rfl
  | cons d ds ih =>
    cases hd : d.declares typeName exported with
    | true =>
      obtain ⟨rfl, hex⟩ := Declaration.declares_iff.mp hd
      rw [file, d.search?_of_declares hex hb, Option.bind_some, read?_spread,
        List.find?_cons_of_pos hd]
      rfl
    | false =>
      have hne : typeName.toList = d.typeName.toList → exported = true ∧ d.exported = false := by
        intro hname
        have hname' : typeName = d.typeName := String.toList_inj.mp hname
        simpa [Declaration.declares, hname', and_comm] using hd
      rw [file, d.search?_of_not_declares hn hne, List.find?_cons_of_neg (by simp [hd])]
      split
      · rename_i hds
        obtain rfl : ds = [] := by simpa using hds
        rw [search?_of_allBlank hn he]
        rfl
      · have hq : Quiet typeName.toList exported ([] ++ ['\n']) (file ending ds) :=
          quiet_of_isCalm (by decide)
        rw [← List.nil_append ('\n' :: _), search?_of_quiet hn hq]
        exact ih (by decide)

/-- An alias has the members of its first declaration that counts. -/
theorem find?_source {typeName : String} (hn : IsAlias typeName.toList) {ending : List Char}
    (he : AllBlank ending) (exported : Bool) (ds : List Declaration) :
    find? (source ending ds) typeName exported
      = (ds.find? (Declaration.declares typeName exported)).map Declaration.shape := by
  rw [find?_eq_bind, source, String.toList_ofList]
  exact bind_search?_file hn.isIdentifier he rfl ds

theorem typeofName?_eq_some_iff {typeText X : String} (h : trim typeText.toList = typeText.toList) :
    typeofName? typeText = some X ↔ IsTypeof typeText.toList X.toList := by
  unfold typeofName?
  rw [h]
  constructor
  · intro hs
    obtain ⟨r, hr, hs⟩ := Option.bind_eq_some_iff.mp hs
    obtain ⟨c, x, hx, hc, rfl⟩ := afterWord?_eq_some_iff.mp hr
    obtain ⟨b, hb, he⟩ := exists_trimLeft x
    cases hy : trimLeft x with
    | nil => simp [hy] at hs
    | cons d y =>
      simp only [hy, Option.ite_none_right_eq_some, Option.some.injEq, Bool.and_eq_true] at hs
      obtain ⟨⟨hd, hall⟩, rfl⟩ := hs
      rw [hy] at he
      rw [hx, he, String.toList_ofList (l := d :: y)]
      exact ⟨c, b, rfl, hc, hb, hd, by simp [isNameChar_of_isNameStart hd, hall]⟩
  · rintro ⟨c, b, hx, hc, hb, hname⟩
    have hword := afterWord?_eq_some_iff.mpr ⟨c, b ++ X.toList, hx, hc, rfl⟩
    obtain ⟨d, y, hy, hd, hall⟩ := hname.exists_cons
    have htrim := hname.isIdentifier.trimLeft_append []
    rw [List.append_nil] at htrim
    rw [trimLeft_append hb, htrim, hy] at hword
    have hX : String.ofList (d :: y) = X := by rw [← hy, String.ofList_toList]
    simp only [hword, Option.bind_eq_bind, Option.bind_some, hd, List.all_eq_true.mpr hall,
      Bool.and_self, if_true, hX]

theorem get?_shape (d : Declaration) (property : String) :
    d.shape.get? property = (d.members.find? fun m => m.name = property).map (·.toProperty) := by
  rw [get?, Declaration.shape, List.find?_map]
  rfl

theorem find?_declares {ds : List Declaration} (hd : (ds.map (·.typeName)).Nodup) {d : Declaration}
    (hm : d ∈ ds) (h : exported = true → d.exported = true) :
    ds.find? (Declaration.declares d.typeName exported) = some d := by
  have hself : d.declares d.typeName exported = true := Declaration.declares_iff.mpr ⟨rfl, h⟩
  cases hf : ds.find? (Declaration.declares d.typeName exported) with
  | none => exact (List.find?_eq_none.mp hf d hm hself).elim
  | some e =>
    have hname := (Declaration.declares_iff.mp (List.find?_some hf)).1
    rw [List.inj_on_of_nodup_map hd (List.mem_of_find?_eq_some hf) hm hname]

theorem find?_declares_eq_none {ds : List Declaration} {typeName : String}
    (h : ∀ d ∈ ds, d.typeName = typeName → exported = true ∧ d.exported = false) :
    ds.find? (Declaration.declares typeName exported) = none := by
  rw [List.find?_eq_none]
  intro d hm hd
  obtain ⟨hname, hex⟩ := Declaration.declares_iff.mp hd
  obtain ⟨he, hd⟩ := h d hm hname
  rw [hex he] at hd
  cases hd

/-- The variable behind a property is looked for in its first member of that name. -/
theorem typeofProperty?_source {typeName : String} (hn : IsAlias typeName.toList)
    {ending : List Char} (he : AllBlank ending) (property : String) (ds : List Declaration) :
    typeofProperty? (source ending ds) typeName property =
      (ds.find? (Declaration.declares typeName true)).bind fun d =>
        (d.members.find? fun m => m.name = property).bind fun m => typeofName? m.typeText := by
  unfold typeofProperty?
  rw [find?_source hn he]
  cases ds.find? (Declaration.declares typeName true) with
  | none => rfl
  | some d =>
    simp only [Option.map_some, Option.bind_eq_bind, Option.bind_some, get?_shape]
    cases d.members.find? fun m => m.name = property <;> rfl

/-- Declarations are read back: each alias with its members in order, by their names, types and
optional marks; with `exported` those that are exported only; and no other alias. So the variable
behind a property is known exactly if the first member of that name is declared as its `typeof`. -/
theorem find?_declared {ds : List Declaration} (hd : (ds.map (·.typeName)).Nodup)
    {ending : List Char} (he : AllBlank ending) :
    (∀ d ∈ ds, find? (source ending ds) d.typeName false = some d.shape ∧
      find? (source ending ds) d.typeName true = if d.exported then some d.shape else none) ∧
    (∀ typeName : String, IsAlias typeName.toList → (∀ d ∈ ds, d.typeName ≠ typeName) →
      ∀ exported, find? (source ending ds) typeName exported = none) ∧
    ∀ typeName property X : String, IsAlias typeName.toList →
      (typeofProperty? (source ending ds) typeName property = some X ↔
        ∃ d ∈ ds, d.typeName = typeName ∧ d.exported = true ∧
          ∃ m, (d.members.find? fun m => m.name = property) = some m ∧
            IsTypeof m.typeText.toList X.toList) := by
  refine ⟨fun d hm => ⟨?_, ?_⟩, ?_, ?_⟩
  · rw [find?_source d.isAlias he, find?_declares hd hm (by simp)]
    rfl
  · rw [find?_source d.isAlias he]
    cases hex : d.exported with
    | true =>
      rw [find?_declares hd hm fun _ => hex]
      rfl
    | false =>
      have hlocal : ∀ e ∈ ds, e.typeName = d.typeName → true = true ∧ e.exported = false := by
        intro e hme hname
        rw [List.inj_on_of_nodup_map hd hme hm hname]
        exact ⟨rfl, hex⟩
      rw [find?_declares_eq_none hlocal]
      rfl
  · intro typeName hn hne exported
    rw [find?_source hn he, find?_declares_eq_none fun d hm hname => (hne d hm hname).elim]
    rfl
  · intro typeName property X hn
    rw [typeofProperty?_source hn he, Option.bind_eq_some_iff]
    constructor
    · rintro ⟨d, hf, hs⟩
      obtain ⟨m, hm, hX⟩ := Option.bind_eq_some_iff.mp hs
      obtain ⟨hname, hex⟩ := Declaration.declares_iff.mp (List.find?_some hf)
      exact ⟨d, List.mem_of_find?_eq_some hf, hname, hex rfl, m, hm,
        (typeofName?_eq_some_iff m.isType.trimmed).mp hX⟩
    · rintro ⟨d, hmem, rfl, hex, m, hm, hX⟩
      refine ⟨d, find?_declares hd hmem fun _ => hex, Option.bind_eq_some_iff.mpr ⟨m, hm, ?_⟩⟩
      exact (typeofName?_eq_some_iff m.isType.trimmed).mpr hX

/-- One alias begins with the other's name, and a type has marks and arrows in its brackets. -/
def shelfTypes : List Declaration :=
  [{ exported := true
     typeName := "TShelf"
     isAlias := by decide
     members :=
       [{ name := "db", typeText := "typeof booksDb", isName := by decide, isType := by decide +kernel },
        { name := "page"
          typeText := "\x7b size: number; next: (a: A, b: Map<K, V>) => void \x7d"
          optional := true
          readOnly := true
          isName := by decide
          isType := by decide +kernel }] },
   { typeName := "TShelfPage"
     isAlias := by decide
     marked := false
     members :=
       [{ name := "type", typeText := "Row[]", isName := by decide, isType := by decide +kernel }] }]

theorem find?_shelfTypes :
    source ['\n'] shelfTypes = "export type TShelf = \x7b db: typeof booksDb; "
      ++ "readonly page?: \x7b size: number; next: (a: A, b: Map<K, V>) => void \x7d; \x7d;\n"
      ++ "type TShelfPage = \x7b type: Row[] \x7d;\n" ∧
    (shelfTypes.map (·.typeName)).Nodup ∧ AllBlank ['\n'] ∧
    find? (source ['\n'] shelfTypes) "TShelf" true = some ⟨"TShelf",
      [⟨"db", "typeof booksDb", false⟩,
        ⟨"page", "\x7b size: number; next: (a: A, b: Map<K, V>) => void \x7d", true⟩]⟩ ∧
    find? (source ['\n'] shelfTypes) "TShelfPage" false = some ⟨"TShelfPage", [⟨"type", "Row[]", false⟩]⟩ ∧
    find? (source ['\n'] shelfTypes) "TShelfPage" true = none ∧
    find? (source ['\n'] shelfTypes) "TShel" false = none ∧
    typeofProperty? (source ['\n'] shelfTypes) "TShelf" "db" = some "booksDb" := by
  have hnames : (shelfTypes.map (·.typeName)).Nodup := by decide
  have hending : AllBlank ['\n'] := by decide
  obtain ⟨hdeclared, hother, htypeof⟩ := find?_declared hnames hending
  have hshelf := hdeclared shelfTypes[0] (by simp [shelfTypes])
  have hpage := hdeclared shelfTypes[1] (by simp [shelfTypes])
  refine ⟨by decide +kernel, hnames, hending, hshelf.2, hpage.1, hpage.2,
    hother "TShel" (by decide) (by decide) false, ?_⟩
  refine (htypeof "TShelf" "db" "booksDb" (by decide)).mpr
    ⟨shelfTypes[0], by simp [shelfTypes], rfl, rfl, _, rfl, ' ', [], rfl, by decide, allBlank_nil, ?_⟩
  decide

end ConventionLint.ObjectType
