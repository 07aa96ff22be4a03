import ConventionLint.Proofs.JsonText
import Mathlib.Data.List.Forall2

/-! What is written as JSON is read back, from values without parts to lists and maps of them, and is in
ASCII. A reader that knows the names of numbers reads all numbers, any other one the finite ones. -/
namespace ConventionLint.Data

def Number.isFinite : Number → Bool
  | int _ => true
  | float x =>
    match magnitude x with
    | .finite _ => true
    | _ => false

namespace Json

open Text

/-- A text that is read as a value, whatever it stands before. -/
structure Reads (names : Bool) (text : List Char) (v : Value) : Prop where
  starts : ∃ c r, text = c :: r ∧ isSpace c = false ∧ c ≠ ']'
  reads : ∀ fuel rest, text.length < fuel → Stops rest →
    read names fuel (text ++ rest) = some (v, rest)

/-- A value whose text is read as another one, at every depth. -/
def ReadsAs (names : Bool) (v w : Value) : Prop := ∀ depth, Reads names (write true depth v) w

variable {names : Bool} {v w : Value} {fuel : Nat} {c : Char} {cs ds back text rest r : List Char}

theorem skipSpaces_cons (h : isSpace c = false) (r : List Char) : skipSpaces (c :: r) = c :: r := by
  simp [skipSpaces, h]

theorem skipSpaces_skipSpaces (cs : List Char) : skipSpaces (skipSpaces cs) = skipSpaces cs := by
  induction cs with
  | nil => rfl
  | cons c cs ih =>
    cases hc : isSpace c with
    | true => simpa [skipSpaces, hc] using ih
    | false => rw [skipSpaces_cons hc, skipSpaces_cons hc]

theorem skipSpaces_newLine (depth : Nat) (cs : List Char) :
    skipSpaces (newLine depth ++ cs) = skipSpaces cs := by
  refine List.dropWhile_append_of_pos fun a ha => ?_
  rcases List.mem_cons.mp ha with rfl | ha
  · rfl
  · rw [(List.mem_replicate.mp ha).2]
    rfl

/-! A reader looks only at what follows spaces. -/

theorem read_congr (h : skipSpaces cs = skipSpaces r) : read names fuel cs = read names fuel r := by
  cases fuel with
  | zero => rfl
  | succ fuel => rw [read, read, h]

theorem readItems_congr (h : skipSpaces cs = skipSpaces r) :
    readItems names fuel cs = readItems names fuel r := by
  cases fuel with
  | zero => rfl
  | succ fuel => rw [readItems, readItems, read_congr h]

theorem readEntries_congr (h : skipSpaces cs = skipSpaces r) :
    readEntries names fuel cs = readEntries names fuel r := by
  cases fuel with
  | zero => rfl
  | succ fuel => rw [readEntries, readEntries, h]

theorem read_quote (fuel : Nat) (r : List Char) : read names (fuel + 1) ('"' :: r) =
    (readChars r).map fun p => (.text (String.ofList p.1), p.2) := by
  rw [read, skipSpaces_cons rfl]
  rfl

theorem read_bracket (hs : skipSpaces r = c :: cs) (hc : c ≠ ']') :
    read names (fuel + 1) ('[' :: r) =
      (readItems names fuel r).map fun p => (.list p.1, p.2) := by
  have hr : readItems names fuel (c :: cs) = readItems names fuel r := by
    rw [← hs]
    exact readItems_congr (skipSpaces_skipSpaces r)
  rw [read, skipSpaces_cons rfl]
  simp only [hs]
  split
  · rename_i h
    exact (hc (List.cons.inj h).1).elim
  · rw [hr]

theorem read_brace (hs : skipSpaces r = '"' :: cs) : read names (fuel + 1) ('{' :: r) =
    (readEntries names fuel r).map fun p => (Value.ofEntries p.1, p.2) := by
  have hr : readEntries names fuel ('"' :: cs) = readEntries names fuel r := by
    rw [← hs]
    exact readEntries_congr (skipSpaces_skipSpaces r)
  rw [read, skipSpaces_cons rfl]
  simp only [hs]
  rw [← hr]
  rfl

/-- What is no mark, quote or word is a number. -/
theorem read_number (hs : isSpace c = false) (hc : c ∉ ['{', '[', '"', 'n', 't', 'f'])
    (r : List Char) : read names (fuel + 1) (c :: r) =
      (readNumber (c :: r) <|> (if names then readName (c :: r) else none)).map
        fun p => (Value.number p.1, p.2) := by
  simp only [List.mem_cons, List.not_mem_nil, or_false, not_or] at hc
  obtain ⟨hbrace, hbracket, hquote, hn, ht, hf⟩ := hc
  rw [read, skipSpaces_cons hs]
  split
  · rename_i h
    exact (hbrace (List.cons.inj h).1).elim
  · rename_i h
    exact (hbracket (List.cons.inj h).1).elim
  · rename_i h
    exact (hquote (List.cons.inj h).1).elim
  · simp [after?, Ne.symm hn, Ne.symm ht, Ne.symm hf]

theorem stops_cons (h : c ∈ [',', '\n', ']', '}']) (r : List Char) : Stops (c :: r) := by
  rintro a ⟨⟩
  simp only [List.mem_cons, List.not_mem_nil, or_false] at h
  rcases h with rfl | rfl | rfl | rfl <;> decide

theorem readsAs_text (s : String) : ReadsAs names (.text s) (.text s) := by
  intro depth
  refine ⟨⟨'"', _, rfl, rfl, by decide⟩, fun fuel rest hf _ => ?_⟩
  cases fuel with
  | zero => omega
  | succ fuel =>
    rw [write, writeText, List.append_assoc, List.cons_append, List.singleton_append, read_quote,
      readChars_text, Option.map_some, String.ofList_toList]

/-- The first character of a number. -/
theorem numberStart (h : c.isDigit = true ∨ c ∈ ['-', 'N', 'I']) :
    isSpace c = false ∧ c ∉ ['{', '[', '"', 'n', 't', 'f'] ∧ c ≠ ']' := by
  rcases h with h | h
  · have hne : ∀ a : Char, a.isDigit = false → c ≠ a := by
      rintro a ha rfl
      rw [h] at ha
      cases ha
    simp [isSpace, hne]
  · simp only [List.mem_cons, List.not_mem_nil, or_false] at h
    rcases h with rfl | rfl | rfl <;> decide

theorem reads_number {n : Number} (hs : ∃ c ∈ text.head?, c.isDigit = true ∨ c ∈ ['-', 'N', 'I'])
    (hn : ∀ rest, Stops rest →
      (readNumber (text ++ rest) <|> (if names then readName (text ++ rest) else none))
        = some (n, rest)) : Reads names text (.number n) := by
  obtain ⟨c, hc, hstart⟩ := hs
  obtain ⟨r, rfl⟩ : ∃ r, text = c :: r := List.head?_eq_some_iff.mp hc
  obtain ⟨hspace, hmark, hend⟩ := numberStart hstart
  refine ⟨⟨c, r, rfl, hspace, hend⟩, fun fuel rest hf hr => ?_⟩
  cases fuel with
  | zero => omega
  | succ fuel =>
    have hx := hn rest hr
    rw [List.cons_append] at hx ⊢
    rw [read_number hspace hmark, hx]
    rfl

/-- A numeral starts with a sign or a digit. -/
theorem head?_numeral (negative : Bool) (h : Whole ds) (back : List Char) :
    ∃ c ∈ ((sign negative).toList ++ (ds ++ back)).head?, c.isDigit = true ∨ c ∈ ['-', 'N', 'I'] := by
  cases negative with
  | true => exact ⟨'-', rfl, Or.inr (by decide)⟩
  | false =>
    obtain ⟨c, ds, rfl⟩ := List.exists_cons_of_ne_nil h.digits.1
    exact ⟨c, rfl, Or.inl (h.digits.2 c (List.mem_cons_self ..))⟩

theorem readsAs_int (n : Int) : ReadsAs names (.number (.int n)) (.number (.int n)) := by
  intro depth
  have hwhole := whole_toDigits n.natAbs
  change Reads names (toString n).toList _
  rw [toList_toString_int]
  have hhead := head?_numeral (decide (n < 0)) hwhole []
  rw [List.append_nil] at hhead
  refine reads_number hhead fun rest hr => ?_
  have hn : (if decide (n < 0) = true then -(n.natAbs : Int) else n.natAbs) = n := by
    simp only [decide_eq_true_eq]
    omega
  rw [List.append_assoc, readNumber_int hwhole hr, digitsValue_toDigits, hn]
  rfl

theorem exists_reads_infinite (negative : Bool) :
    ∃ m, Reads true (sign negative ++ "Infinity").toList (.number m) := by
  cases negative with
  | true =>
    have htext : (sign true ++ "Infinity").toList = "-Infinity".toList := by simp [sign]
    rw [htext]
    exact ⟨_, reads_number ⟨'-', rfl, Or.inr (by decide)⟩ fun _ _ => rfl⟩
  | false =>
    have htext : (sign false ++ "Infinity").toList = "Infinity".toList := by simp [sign]
    rw [htext]
    exact ⟨_, reads_number ⟨'I', rfl, Or.inr (by decide)⟩ fun _ _ => rfl⟩

/-- Every number is read, a finite one also without names. -/
theorem exists_readsAs_number (n : Number) (h : names = true ∨ n.isFinite = true) :
    ∃ m, ReadsAs names (.number n) (.number m) := by
  cases n with
  | int n => exact ⟨.int n, readsAs_int n⟩
  | float x =>
    have hw : ∀ depth, write true depth (.number (.float x)) = writeNumber (.float x) := fun _ => rfl
    unfold ReadsAs
    simp only [hw]
    unfold Number.isFinite at h
    unfold writeNumber shortestText
    dsimp only at h ⊢
    cases hm : magnitude x with
    | finite b =>
      obtain ⟨ds, back, htext, hwhole, hback⟩ := toList_decimal b.shortest
      obtain ⟨n, hn⟩ := exists_readNumber hwhole hback (isNegative x)
      refine ⟨n, fun _ => ?_⟩
      rw [String.toList_append, htext]
      refine reads_number (head?_numeral _ hwhole back) fun rest hr => ?_
      rw [hn rest hr]
      rfl
    | infinite =>
      have hnames : names = true := by simpa [hm] using h
      subst hnames
      obtain ⟨m, hm⟩ := exists_reads_infinite (isNegative x)
      exact ⟨m, fun _ => hm⟩
    | notNumber =>
      have hnames : names = true := by simpa [hm] using h
      subst hnames
      refine ⟨.float (0.0 / 0.0), fun _ => ?_⟩
      exact reads_number ⟨'N', rfl, Or.inr (by decide)⟩ fun rest _ => rfl

/-! Parts on lines of their own, up to the closing mark. Each takes one unit of fuel and is longer than
that. -/

theorem stops_newLine (depth : Nat) (r : List Char) : Stops (newLine depth ++ r) :=
  stops_cons (by simp) _

theorem length_newLine (depth : Nat) : (newLine depth).length = 2 * depth + 1 := by
  simp [newLine]

/-- Parts on lines of their own. -/
def linesOf (depth : Nat) (parts : List (List Char)) : List Char :=
  List.intercalate [','] (parts.map (newLine depth ++ ·))

theorem linesOf_singleton (depth : Nat) (p : List Char) : linesOf depth [p] = newLine depth ++ p := by
  simp [linesOf]

theorem linesOf_cons_cons (depth : Nat) (p q : List Char) (parts : List (List Char)) :
    linesOf depth (p :: q :: parts) = newLine depth ++ (p ++ ',' :: linesOf depth (q :: parts)) := by
  simp [linesOf, List.intercalate_cons_cons]

theorem writeBlock_of_ne_nil {parts : List (List Char)} (h : parts ≠ []) (first last : Char)
    (depth : Nat) : writeBlock first last depth parts =
      first :: (linesOf (depth + 1) parts ++ (newLine depth ++ [last])) := by
  rw [writeBlock, if_neg (by simpa using h)]
  simp [linesOf]

/-- Parts on lines of their own start where the first of them does. -/
theorem skipSpaces_linesOf {part : List Char} (hp : part.head? = some c) (hc : isSpace c = false)
    (depth : Nat) (parts : List (List Char)) (rest : List Char) :
    ∃ more, skipSpaces (linesOf depth (part :: parts) ++ rest) = c :: more := by
  obtain ⟨r, rfl⟩ : ∃ r, part = c :: r := List.head?_eq_some_iff.mp hp
  cases parts with
  | nil =>
    rw [linesOf_singleton, List.append_assoc, skipSpaces_newLine]
    exact ⟨_, skipSpaces_cons hc _⟩
  | cons q parts =>
    rw [linesOf_cons_cons, List.append_assoc, skipSpaces_newLine]
    exact ⟨_, skipSpaces_cons hc _⟩

/-- How a reader goes from part to part up to a closing mark. -/
structure PartReader {β : Type} (Part : List Char → β → Prop) (close : Char)
    (R : Nat → List Char → Option (List β × List Char)) : Prop where
  spaces : ∀ {fuel cs r}, skipSpaces cs = skipSpaces r → R fuel cs = R fuel r
  last : ∀ {part b}, Part part b → ∀ {fuel rest}, part.length < fuel → ∀ depth,
    R (fuel + 1) (part ++ (newLine depth ++ close :: rest)) = some ([b], rest)
  more : ∀ {part b}, Part part b → ∀ {fuel rest}, part.length < fuel →
    R (fuel + 1) (part ++ ',' :: rest) = (R fuel rest).map fun p => (b :: p.1, p.2)

theorem PartReader.lines {β : Type} {Part : List Char → β → Prop} {close : Char}
    {R : Nat → List Char → Option (List β × List Char)} (hR : PartReader Part close R)
    {parts : List (List Char)} {bs : List β} (h : List.Forall₂ Part parts bs) (hne : parts ≠ [])
    (depth outer : Nat) (rest : List Char) (hf : (linesOf depth parts).length < fuel) :
    R fuel (linesOf depth parts ++ (newLine outer ++ close :: rest)) = some (bs, rest) := by
  induction h generalizing fuel with
  | nil => exact (hne rfl).elim
  | @cons part b parts bs hp hrest ih =>
    have hline := length_newLine depth
    cases fuel with
    | zero => omega
    | succ fuel =>
      cases hrest with
      | nil =>
        rw [linesOf_singleton] at hf ⊢
        rw [List.length_append] at hf
        rw [List.append_assoc, hR.spaces (skipSpaces_newLine depth _)]
        exact hR.last hp (by omega) outer
      | cons hq hrest =>
        rw [linesOf_cons_cons] at hf ⊢
        rw [List.length_append, List.length_append, List.length_cons] at hf
        rw [List.append_assoc, List.append_assoc, List.cons_append,
          hR.spaces (skipSpaces_newLine depth _), hR.more hp (by omega), ih (by simp) (by omega)]
        rfl

/-- A block is read as what its parts are read as. The reader knows by the start of the first part that
the block is not empty. -/
theorem PartReader.reads_block {β : Type} {Part : List Char → β → Prop} {first close : Char}
    {R : Nat → List Char → Option (List β × List Char)} {value : List β → Value}
    (hR : PartReader Part close R) (hspace : isSpace first = false) (hend : first ≠ ']')
    (hnone : ∀ fuel rest, read names (fuel + 1) (first :: close :: rest) = some (value [], rest))
    (hsome : ∀ {part b}, Part part b → ∃ c, part.head? = some c ∧ isSpace c = false ∧
      ∀ fuel r cs, skipSpaces r = c :: cs →
        read names (fuel + 1) (first :: r) = (R fuel r).map fun p => (value p.1, p.2))
    {parts : List (List Char)} {bs : List β} (h : List.Forall₂ Part parts bs) (depth : Nat) :
    Reads names (writeBlock first close depth parts) (value bs) := by
  cases h with
  | nil =>
    refine ⟨⟨first, [close], rfl, hspace, hend⟩, fun fuel rest hf _ => ?_⟩
    cases fuel with
    | zero => omega
    | succ fuel => exact hnone fuel rest
  | @cons part b parts bs hp hrest =>
    rw [writeBlock_of_ne_nil (by simp)]
    refine ⟨⟨first, _, rfl, hspace, hend⟩, fun fuel rest hf _ => ?_⟩
    cases fuel with
    | zero => omega
    | succ fuel =>
      rw [List.length_cons, List.length_append] at hf
      obtain ⟨c, hhead, hc, hread⟩ := hsome hp
      obtain ⟨more, hmore⟩ := skipSpaces_linesOf hhead hc (depth + 1) parts
        (newLine depth ++ close :: rest)
      rw [List.cons_append, List.append_assoc, List.append_assoc, List.singleton_append,
        hread _ _ _ hmore, hR.lines (.cons hp hrest) (by simp) (depth + 1) depth rest (by omega)]
      rfl

theorem partReader_items : PartReader (Reads names) ']' (readItems names) where
  spaces := readItems_congr
  last hp fuel rest hf depth := by
    rw [readItems, hp.reads fuel _ hf (stops_newLine _ _)]
    simp only [Option.bind_eq_bind, Option.bind_some, skipSpaces_newLine]
    rfl
  more hp fuel rest hf := by
    rw [readItems, hp.reads fuel _ hf (stops_cons (by simp) _)]
    simp only [Option.bind_eq_bind, Option.bind_some, skipSpaces_cons (c := ',') rfl]
    cases readItems names fuel rest <;> rfl

/-- A text that is read as an entry of a map. -/
inductive ReadsEntry (names : Bool) : List Char → Value × Value → Prop where
  | entry (key : String) {text : List Char} {v : Value} : Reads names text v →
      ReadsEntry names (writeText true key ++ ':' :: ' ' :: text) (.text key, v)

theorem readEntries_entry (h : Reads names text v) (hf : text.length < fuel) (hr : Stops rest)
    (key : String) :
    (∀ r, skipSpaces rest = '}' :: r →
      readEntries names (fuel + 1) (writeText true key ++ ':' :: ' ' :: text ++ rest) =
        some ([(.text key, v)], r)) ∧
    (∀ r, skipSpaces rest = ',' :: r →
      readEntries names (fuel + 1) (writeText true key ++ ':' :: ' ' :: text ++ rest) =
        (readEntries names fuel r).map fun p => ((.text key, v) :: p.1, p.2)) := by
  have hkey : readChars (key.toList.flatMap (writeChar true) ++ '"' :: ':' :: ' ' :: (text ++ rest))
      = some (key.toList, ':' :: ' ' :: (text ++ rest)) := readChars_text ..
  have hvalue : read names fuel (' ' :: (text ++ rest)) = some (v, rest) := by
    have hspaces : skipSpaces (' ' :: (text ++ rest)) = skipSpaces (text ++ rest) := rfl
    rw [read_congr hspaces]
    exact h.reads fuel rest hf hr
  have htext : writeText true key ++ ':' :: ' ' :: text ++ rest =
      '"' :: (key.toList.flatMap (writeChar true) ++ '"' :: ':' :: ' ' :: (text ++ rest)) := by
    simp [writeText]
  rw [htext, readEntries, skipSpaces_cons rfl]
  simp only [hkey, Option.bind_eq_bind, Option.bind_some, skipSpaces_cons (c := ':') rfl, hvalue,
    String.ofList_toList]
  constructor
  · intro r hend
    rw [hend]
    rfl
  · intro r hcomma
    simp only [hcomma]
    cases readEntries names fuel r <;> rfl

theorem partReader_entries : PartReader (ReadsEntry names) '}' (readEntries names) where
  spaces := readEntries_congr
  last hp fuel rest hf depth := by
    obtain ⟨key, h⟩ := hp
    rw [List.length_append, List.length_cons, List.length_cons] at hf
    refine (readEntries_entry h (by omega) (stops_newLine _ _) key).1 rest ?_
    rw [skipSpaces_newLine, skipSpaces_cons rfl]
  more hp fuel rest hf := by
    obtain ⟨key, h⟩ := hp
    rw [List.length_append, List.length_cons, List.length_cons] at hf
    exact (readEntries_entry h (by omega) (stops_cons (by simp) _) key).2 rest
      (skipSpaces_cons rfl rest)

theorem writeItems_eq (depth : Nat) (vs : List Value) :
    writeItems true depth vs = vs.map (write true depth) := by
  induction vs with
  | nil => rfl
  | cons v vs ih => rw [writeItems, ih, List.map_cons]

theorem readsAs_list {vs ws : List Value} (h : List.Forall₂ (ReadsAs names) vs ws) :
    ReadsAs names (.list vs) (.list ws) := by
  intro depth
  have hparts : List.Forall₂ (Reads names) (vs.map (write true (depth + 1))) ws :=
    List.forall₂_map_left_iff.mpr (h.imp fun _ _ hv => hv (depth + 1))
  rw [write, writeItems_eq]
  refine partReader_items.reads_block rfl (by decide) (fun _ _ => rfl) ?_ hparts depth
  intro part w hp
  obtain ⟨c, r, hc, hspace, hend⟩ := hp.starts
  refine ⟨c, List.head?_eq_some_iff.mpr ⟨r, hc⟩, hspace, ?_⟩
  intro fuel r cs hs
  exact read_bracket hs hend

/-! Maps whose keys are texts, no two of them alike. -/

/-- A map from its names and values. -/
def fieldsOf (fields : List (String × Value)) : List (Value × Value) :=
  fields.map fun f => (.text f.1, f.2)

theorem put_fieldsOf {key : String} {fields : List (String × Value)} (h : key ∉ fields.map Prod.fst)
    (v : Value) : Value.put (.text key) v (fieldsOf fields) = fieldsOf (fields ++ [(key, v)]) := by
  induction fields with
  | nil => rfl
  | cons f fields ih =>
    rw [List.map_cons, List.mem_cons, not_or] at h
    have hkey : (Value.text f.1).sameKey (.text key) = false := decide_eq_false (Ne.symm h.1)
    change (if (Value.text f.1).sameKey (.text key) = true then _
      else _ :: Value.put (.text key) v (fieldsOf fields)) = _
    rw [if_neg (by simp [hkey]), ih h.2]
    rfl

theorem foldl_put_fieldsOf (fields done : List (String × Value))
    (h : ((done ++ fields).map Prod.fst).Nodup) :
    (fieldsOf fields).foldl (fun m e => Value.put e.1 e.2 m) (fieldsOf done)
      = fieldsOf (done ++ fields) := by
  induction fields generalizing done with
  | nil => simp [fieldsOf]
  | cons f fields ih =>
    have hf : f.1 ∉ done.map Prod.fst := by
      rw [List.map_append, List.nodup_append] at h
      exact fun hin => h.2.2 f.1 hin f.1 (by simp) rfl
    have hstep : done ++ f :: fields = (done ++ [f]) ++ fields := by simp
    rw [hstep] at h ⊢
    rw [← ih (done ++ [f]) h, ← put_fieldsOf hf]
    rfl

theorem ofEntries_fieldsOf {fields : List (String × Value)} (h : (fields.map Prod.fst).Nodup) :
    Value.ofEntries (fieldsOf fields) = .map (fieldsOf fields) :=
  congrArg Value.map (foldl_put_fieldsOf fields [] h)

theorem writeEntries_fieldsOf (depth : Nat) (fields : List (String × Value)) :
    writeEntries true depth (fieldsOf fields) =
      fields.map fun f => writeText true f.1 ++ ':' :: ' ' :: write true depth f.2 := by
  induction fields with
  | nil => rfl
  | cons f fields ih =>
    change _ :: writeEntries true depth (fieldsOf fields) = _
    rw [ih]
    rfl

theorem readsAs_fields {fields others : List (String × Value)}
    (h : List.Forall₂ (fun f g => f.1 = g.1 ∧ ReadsAs names f.2 g.2) fields others)
    (hkeys : (others.map Prod.fst).Nodup) :
    ReadsAs names (.map (fieldsOf fields)) (.map (fieldsOf others)) := by
  intro depth
  have hparts : List.Forall₂ (ReadsEntry names)
      (fields.map fun f => writeText true f.1 ++ ':' :: ' ' :: write true (depth + 1) f.2)
      (fieldsOf others) := by
    refine List.forall₂_map_left_iff.mpr (List.forall₂_map_right_iff.mpr (h.imp ?_))
    rintro f g ⟨hname, hvalue⟩
    rw [hname]
    exact .entry g.1 (hvalue (depth + 1))
  rw [write, writeEntries_fieldsOf, ← ofEntries_fieldsOf hkeys]
  refine partReader_entries.reads_block rfl (by decide) (fun _ _ => rfl) ?_ hparts depth
  rintro part e ⟨key, hvalue⟩
  refine ⟨'"', rfl, rfl, ?_⟩
  intro fuel r cs hs
  exact read_brace hs

/-- What is read as a value at the front of a text is read as the whole text. -/
theorem parseWith?_render (h : ReadsAs names v w) : parseWith? names (render true v) = some w := by
  have hread := (h 0).reads ((write true 0 v).length + 1) [] (by omega) (by rintro a ⟨⟩)
  rw [List.append_nil] at hread
  rw [parseWith?, render, String.toList_ofList, String.length_ofList, hread]
  rfl

/-! What is written has no characters but the ones of ASCII. -/

def Ascii (cs : List Char) : Prop := ∀ c ∈ cs, c.toNat < 128

@[simp] theorem ascii_nil : Ascii [] := by
  simp [Ascii]

@[simp] theorem ascii_cons : Ascii (c :: cs) ↔ c.toNat < 128 ∧ Ascii cs := List.forall_mem_cons

@[simp] theorem ascii_append : Ascii (cs ++ ds) ↔ Ascii cs ∧ Ascii ds := List.forall_mem_append

theorem ascii_of_all (h : cs.all (fun c => c.toNat < 128) = true) : Ascii cs := by
  intro c hc
  exact of_decide_eq_true (List.all_eq_true.mp h c hc)

theorem ascii_digits (h : ∀ c ∈ cs, c.isDigit = true) : Ascii cs := by
  intro c hc
  have hd := h c hc
  rw [Char.isDigit, Bool.and_eq_true, decide_eq_true_iff, decide_eq_true_iff] at hd
  have hle : c.toNat ≤ 57 := UInt32.le_iff_toNat_le.mp hd.2
  omega

theorem ascii_charEscape (c : Char) : Ascii (charEscape c) := by
  have hdigit : ∀ n : Nat, (hexDigit n).toNat < 128 := by
    intro n
    have h : ∀ d : Fin 16, (Nat.digitChar d).toNat < 128 := by decide
    exact h ⟨n % 16, Nat.mod_lt _ (by decide)⟩
  have hunit : ∀ n, Ascii (unitEscape n) := by
    intro n
    rw [unitEscape_eq]
    simp [hdigit]
  unfold charEscape
  dsimp only
  split
  · exact hunit _
  · exact ascii_append.mpr ⟨hunit _, hunit _⟩

theorem ascii_writeChar (c : Char) : Ascii (writeChar true c) := by
  obtain ⟨e, -, he, -, hw⟩ | hw | ⟨hw, -, -, -, hc⟩ := writeChar_cases true c <;> rw [hw]
  · simp [he]
  · exact ascii_charEscape c
  · have hle : c ≤ '~' := by simpa using hc
    have hcode : c.toNat ≤ 126 := UInt32.le_iff_toNat_le.mp (Char.le_def.mp hle)
    exact ascii_cons.mpr ⟨by omega, ascii_nil⟩

theorem ascii_writeText (s : String) : Ascii (writeText true s) := by
  rw [writeText, List.cons_append, ascii_cons, ascii_append]
  refine ⟨by decide, fun c hc => ?_, by simp⟩
  obtain ⟨a, -, ha⟩ := List.mem_flatMap.mp hc
  exact ascii_writeChar a c ha

theorem ascii_back (h : Back back) : Ascii back := by
  have hmark : ∀ less : Bool, (if less then '-' else '+').toNat < 128 := by decide
  cases h with
  | none => simp
  | fraction hf => exact ascii_cons.mpr ⟨by decide, ascii_digits hf.2⟩
  | power less hp => exact ascii_cons.mpr ⟨by decide, ascii_cons.mpr ⟨hmark less, ascii_digits hp.2⟩⟩
  | fractionPower less hf hp =>
    refine ascii_append.mpr ⟨ascii_cons.mpr ⟨by decide, ascii_digits hf.2⟩, ?_⟩
    exact ascii_cons.mpr ⟨by decide, ascii_cons.mpr ⟨hmark less, ascii_digits hp.2⟩⟩

theorem ascii_writeNumber (n : Number) : Ascii (writeNumber n) := by
  have hsign : ∀ negative : Bool, Ascii (sign negative).toList := by
    intro negative
    cases negative <;> exact ascii_of_all (by decide)
  unfold writeNumber
  split
  · rw [toList_toString_int]
    exact ascii_append.mpr ⟨hsign _, ascii_digits (digits_toDigits _).2⟩
  · rename_i x
    unfold shortestText
    cases magnitude x with
    | finite b =>
      obtain ⟨ds, back, htext, hwhole, hback⟩ := toList_decimal b.shortest
      dsimp only
      rw [String.toList_append, htext]
      simp [hsign, ascii_digits hwhole.digits.2, ascii_back hback]
    | infinite =>
      dsimp only
      rw [String.toList_append]
      exact ascii_append.mpr ⟨hsign _, ascii_of_all (by decide)⟩
    | notNumber => exact ascii_of_all rfl

theorem ascii_newLine (depth : Nat) : Ascii (newLine depth) := by
  refine ascii_cons.mpr ⟨by decide, fun c hc => ?_⟩
  rw [(List.mem_replicate.mp hc).2]
  decide

theorem ascii_linesOf {parts : List (List Char)} (h : ∀ p ∈ parts, Ascii p) (depth : Nat) :
    Ascii (linesOf depth parts) := by
  induction parts with
  | nil => exact ascii_nil
  | cons p parts ih =>
    rw [List.forall_mem_cons] at h
    cases parts with
    | nil => simp [linesOf_singleton, ascii_newLine, h.1]
    | cons q parts => simp [linesOf_cons_cons, ascii_newLine, h.1, ih h.2]

theorem ascii_writeBlock {first last : Char} (hfirst : first.toNat < 128) (hlast : last.toNat < 128)
    {parts : List (List Char)} (h : ∀ p ∈ parts, Ascii p) (depth : Nat) :
    Ascii (writeBlock first last depth parts) := by
  by_cases hne : parts = []
  · subst hne
    simp [writeBlock, hfirst, hlast]
  · rw [writeBlock_of_ne_nil hne]
    simp [hfirst, hlast, ascii_linesOf h, ascii_newLine]

mutual

theorem ascii_write (depth : Nat) : (v : Value) → Ascii (write true depth v)
  | .null => ascii_of_all rfl
  | .bool b => by cases b <;> exact ascii_of_all rfl
  | .number n => ascii_writeNumber n
  | .text s => ascii_writeText s
  | .list items => ascii_writeBlock (by decide) (by decide) (ascii_writeItems (depth + 1) items) depth
  | .map entries =>
    ascii_writeBlock (by decide) (by decide) (ascii_writeEntries (depth + 1) entries) depth
  | .other plain _ => ascii_writeText plain

theorem ascii_writeItems (depth : Nat) :
    (vs : List Value) → ∀ p ∈ writeItems true depth vs, Ascii p
  | [] => by simp [writeItems]
  | v :: vs => by
    rw [writeItems]
    exact List.forall_mem_cons.mpr ⟨ascii_write depth v, ascii_writeItems depth vs⟩

theorem ascii_writeEntries (depth : Nat) :
    (es : List (Value × Value)) → ∀ p ∈ writeEntries true depth es, Ascii p
  | [] => by simp [writeEntries]
  | (k, v) :: es => by
    rw [writeEntries]
    refine List.forall_mem_cons.mpr ⟨?_, ascii_writeEntries depth es⟩
    simp [ascii_writeText, ascii_write depth v]

end

end Json

end ConventionLint.Data
