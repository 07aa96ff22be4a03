import Mathlib.Data.List.FinRange
import ConventionLint.Module.TestLayout
import ConventionLint.Proofs.Blank
import ConventionLint.Proofs.Text

/-! The calls outside all braces. The depth that is counted line by line never goes below zero, so
it is zero where the running depth, which may, is as low as it was anywhere before. -/
namespace ConventionLint.TestLayout

open Text

variable {names : List String} {line opening closing : List Char}
  {ls before body after : List (List Char)} {d k : Nat}

/-- The braces that are opened in some lines, less those that are closed. -/
def net (ls : List (List Char)) : Int := ls.flatten.count '{' - ls.flatten.count '}'

/-- The running depth before a line: braces that close more than was opened count, too. -/
def depthAt (ls : List (List Char)) (k : Nat) : Int := net (ls.take k)

/-- The running depth is nowhere lower before a line. -/
def IsLowest (ls : List (List Char)) (k : Nat) : Prop := ∀ j ≤ k, depthAt ls k ≤ depthAt ls j

/-- White space, one of the names, white space, and a parenthesis. -/
def OpensCall (names : List String) (line : List Char) : Prop :=
  ∃ name ∈ names, ∃ b b' r, AllBlank b ∧ AllBlank b' ∧ line = b ++ name.toList ++ b' ++ '(' :: r

/-- A line that changes no depth, such as one without braces, and opens no call. -/
structure IsAside (line : List Char) : Prop where
  net : net [line] = 0
  test : ¬ OpensCall ["test", "it"] line
  describe : ¬ OpensCall ["describe"] line

/-- The line as it is reported. -/
def shown (line : List Char) : String := String.ofList (trim line)

/-! Lines that open calls. -/

theorem startsCall_iff (h : ∀ name ∈ names, ∃ c r, name.toList = c :: r ∧ isBlank c = false) :
    startsCall names line = true ↔ OpensCall names line := by
  rw [startsCall, List.any_eq_true, OpensCall]
  refine exists_congr fun name => and_congr_right fun hname => ?_
  obtain ⟨c, s, hs, hc⟩ := h name hname
  rw [Option.any_eq_true]
  constructor
  · rintro ⟨r, hr, hparen⟩
    rw [after?_eq_some_iff] at hr
    obtain ⟨b, hb, hline⟩ := exists_trimLeft line
    obtain ⟨b', hb', hrest⟩ := exists_trimLeft r
    obtain ⟨r', hr'⟩ := List.head?_eq_some_iff.mp (of_decide_eq_true hparen)
    refine ⟨b, b', r', hb, hb', ?_⟩
    rw [hr, hrest, hr'] at hline
    simpa using hline
  · rintro ⟨b, b', r, hb, hb', rfl⟩
    refine ⟨b' ++ '(' :: r, ?_, ?_⟩
    · rw [after?_eq_some_iff, List.append_assoc, List.append_assoc, trimLeft_append hb, hs,
        List.cons_append, trimLeft_cons hc]
    · rw [trimLeft_append hb', trimLeft_cons (by decide)]
      rfl

theorem isTest_iff : isTest line = true ↔ OpensCall ["test", "it"] line := by
  refine startsCall_iff ?_
  intro name hname
  rcases List.mem_pair.mp hname with rfl | rfl
  · exact ⟨'t', ['e', 's', 't'], by decide, by decide⟩
  · exact ⟨'i', ['t'], by decide, by decide⟩

theorem isDescribe_iff : isDescribe line = true ↔ OpensCall ["describe"] line := by
  refine startsCall_iff ?_
  intro name hname
  rw [List.mem_singleton] at hname
  subst hname
  exact ⟨'d', ['e', 's', 'c', 'r', 'i', 'b', 'e'], by decide, by decide⟩

theorem prefix_of_startsCall (h : startsCall names line = true) :
    ∃ name ∈ names, name.toList <+: trimLeft line := by
  obtain ⟨name, hname, hany⟩ := List.any_eq_true.mp h
  obtain ⟨r, hr, -⟩ := (Option.any_eq_true ..).mp hany
  exact ⟨name, hname, after?_isSome_iff.mp (Option.isSome_of_eq_some hr)⟩

/-- No line is reported as both. -/
theorem not_isDescribe_of_isTest (h : isTest line = true) : isDescribe line = false := by
  rw [Bool.eq_false_iff]
  intro hd
  obtain ⟨name, hname, ht⟩ := prefix_of_startsCall h
  obtain ⟨name', hname', hd⟩ := prefix_of_startsCall hd
  rw [List.mem_singleton] at hname'
  subst hname'
  have hcases := List.prefix_or_prefix_of_prefix ht hd
  rcases List.mem_pair.mp hname with rfl | rfl
  · exact absurd hcases (by decide)
  · exact absurd hcases (by decide)

/-! The depth, counted with and without a floor. -/

theorem net_cons (line : List Char) (ls : List (List Char)) :
    net (line :: ls) = net [line] + net ls := by
  simp only [net, List.flatten_cons, List.flatten_nil, List.append_nil, List.count_append]
  omega

theorem depthAfter_eq (d : Nat) (line : List Char) :
    (depthAfter d line : Int) = max 0 (d + net [line]) := by
  simp only [depthAfter, net, List.flatten_cons, List.flatten_nil, List.append_nil]
  omega

@[simp] theorem depthAt_zero (ls : List (List Char)) : depthAt ls 0 = 0 := rfl

theorem depthAt_succ_cons (line : List Char) (ls : List (List Char)) (k : Nat) :
    depthAt (line :: ls) (k + 1) = net [line] + depthAt ls k := by
  rw [depthAt, List.take_succ_cons, net_cons]
  rfl

theorem depthAt_succ (h : k < ls.length) : depthAt ls (k + 1) = depthAt ls k + net [ls[k]] := by
  induction ls generalizing k with
  | nil => cases h
  | cons line ls ih =>
    cases k with
    | zero => rw [depthAt_succ_cons, depthAt_zero, depthAt_zero, Int.add_comm]; rfl
    | succ k =>
      have hk : k < ls.length := Nat.lt_of_succ_lt_succ h
      rw [depthAt_succ_cons, depthAt_succ_cons, ih hk, Int.add_assoc]
      rfl

/-- The depth before a line as it is counted. -/
def counted (ls : List (List Char)) (k : Nat) : Nat := (ls.take k).foldl depthAfter 0

theorem counted_succ (h : k < ls.length) :
    counted ls (k + 1) = depthAfter (counted ls k) (ls[k]) := by
  rw [counted, List.take_add_one, List.foldl_append, List.getElem?_eq_getElem h]
  rfl

/-- What is counted is how far the running depth lies above its minimum so far. -/
theorem counted_spec (h : k ≤ ls.length) :
    (∀ j ≤ k, depthAt ls k ≤ counted ls k + depthAt ls j) ∧
      ∃ j ≤ k, depthAt ls k = counted ls k + depthAt ls j := by
  induction k with
  | zero =>
    refine ⟨fun j hj => ?_, 0, Nat.le_refl 0, ?_⟩
    · rw [Nat.le_zero.mp hj]
      exact Int.le_add_of_nonneg_left (Int.natCast_nonneg _)
    · exact (Int.zero_add _).symm
  | succ k ih =>
    obtain ⟨hle, j, hj, heq⟩ := ih (Nat.le_of_succ_le h)
    have hdepth := depthAt_succ h
    have hcount := congrArg Int.ofNat (counted_succ h)
    have hafter := depthAfter_eq (counted ls k) (ls[k])
    simp only [Int.ofNat_eq_natCast] at hcount
    rw [hafter] at hcount
    constructor
    · intro i hi
      rcases Nat.lt_or_eq_of_le hi with hi | rfl
      · have := hle i (Nat.le_of_lt_succ hi)
        omega
      · omega
    · by_cases hlow : counted ls k + net [ls[k]] ≤ 0
      · -- The running depth falls to a new minimum.
        exact ⟨k + 1, Nat.le_refl _, by omega⟩
      · exact ⟨j, Nat.le_succ_of_le hj, by omega⟩

theorem counted_eq_zero_iff (h : k ≤ ls.length) : counted ls k = 0 ↔ IsLowest ls k := by
  obtain ⟨hle, j, hj, heq⟩ := counted_spec h
  constructor
  · intro h0 i hi
    have := hle i hi
    omega
  · intro hlow
    have := hlow j hj
    omega

/-- The outer lines are those at which nothing is counted as open. -/
theorem outerLines_eq (d : Nat) (ls : List (List Char)) :
    outerLines d ls = ((List.finRange ls.length).filter fun k : Fin ls.length =>
      (ls.take k).foldl depthAfter d = 0).map fun k => ls[k] := by
  induction ls generalizing d with
  | nil => rfl
  | cons line ls ih =>
    have hrange : List.finRange (line :: ls).length = 0 :: (List.finRange ls.length).map Fin.succ :=
      List.finRange_succ
    have hrest : (((List.finRange ls.length).map Fin.succ).filter fun k : Fin (ls.length + 1) =>
        ((line :: ls).take k).foldl depthAfter d = 0).map (fun k => (line :: ls)[k])
          = outerLines (depthAfter d line) ls := by
      rw [ih, List.filter_map, List.map_map]
      rfl
    rw [outerLines, ← hrest, hrange, List.filter_cons]
    by_cases hd : d = 0
    · simp only [hd, if_true]
      rfl
    · simp [hd]

/-- Lines of one kind at which nothing is open, in order. -/
theorem filter_outerLines (p : List Char → Bool) (ls : List (List Char)) :
    ∃ ks : List (Fin ls.length), ks.Pairwise (· < ·) ∧
      (∀ k, k ∈ ks ↔ p ls[k] = true ∧ IsLowest ls k) ∧
      (outerLines 0 ls).filter p = ks.map fun k => ls[k] := by
  refine ⟨((List.finRange ls.length).filter fun k : Fin ls.length => counted ls k = 0).filter
    fun k => p ls[k], ?_, fun k => ?_, ?_⟩
  · exact ((List.pairwise_lt_finRange ls.length).filter _).filter _
  · rw [List.mem_filter, List.mem_filter, decide_eq_true_iff, counted_eq_zero_iff k.isLt.le]
    simp [and_comm]
  · rw [outerLines_eq, List.filter_map]
    rfl

/-- Where no brace closes more than was opened, the running depth is lowest where it is zero. -/
theorem isLowest_iff_of_nonneg (h : ∀ j < ls.length, 0 ≤ depthAt ls j) (hk : k < ls.length) :
    IsLowest ls k ↔ depthAt ls k = 0 := by
  constructor
  · intro hlow
    exact Int.le_antisymm (hlow 0 (Nat.zero_le k)) (h k hk)
  · intro h0 j hj
    rw [h0]
    exact h j (Nat.lt_of_le_of_lt hj hk)

/-! A module in which everything is wrapped in one call. -/

theorem outerLines_append_of_net (h : ∀ line ∈ before, net [line] = 0) (r : List (List Char)) :
    outerLines 0 (before ++ r) = before ++ outerLines 0 r := by
  induction before with
  | nil => rfl
  | cons line before ih =>
    have hzero : depthAfter 0 line = 0 := by
      have hafter := depthAfter_eq 0 line
      have hline := h line (List.mem_cons_self ..)
      omega
    rw [List.cons_append, outerLines, hzero, ih fun l hl => h l (List.mem_cons_of_mem _ hl)]
    rfl

/-- Lines inside braces are passed over. -/
theorem outerLines_append_of_pos (h : ∀ j ≤ body.length, 0 < d + net (body.take j))
    (r : List (List Char)) : outerLines d (body ++ r) = outerLines (d + net body).toNat r := by
  induction body generalizing d with
  | nil => simp [net]
  | cons line body ih =>
    have hd := h 0 (Nat.zero_le _)
    have hline := h 1 (Nat.le_add_left 1 _)
    have hafter := depthAfter_eq d line
    simp only [List.take_zero, List.take_succ_cons] at hd hline
    have hnet : (depthAfter d line : Int) = d + net [line] := by omega
    have hpos : d ≠ 0 := by
      rintro rfl
      exact absurd hd (by decide)
    rw [List.cons_append, outerLines, if_neg hpos, ih, hnet, net_cons line body, Int.add_assoc]
    intro j hj
    have hstep := h (j + 1) (Nat.succ_le_succ hj)
    rw [List.take_succ_cons, net_cons] at hstep
    omega

theorem outerLines_subset (d : Nat) (ls : List (List Char)) : outerLines d ls ⊆ ls := by
  rw [outerLines_eq]
  intro line hline
  obtain ⟨k, -, rfl⟩ := List.mem_map.mp hline
  exact List.getElem_mem ..

theorem outerLines_wrapped (hbefore : ∀ line ∈ before, net [line] = 0)
    (hopening : net [opening] = 1) (hbody : ∀ j ≤ body.length, 1 ≤ net (opening :: body.take j))
    (closing : List Char) (after : List (List Char)) :
    ∃ rest ⊆ after, outerLines 0 (before ++ opening :: (body ++ closing :: after))
      = before ++ opening :: rest := by
  have hone : depthAfter 0 opening = 1 := by
    have hafter := depthAfter_eq 0 opening
    omega
  have hinside : ∀ j ≤ body.length, 0 < ((1 : Nat) : Int) + net (body.take j) := by
    intro j hj
    have := hbody j hj
    rw [net_cons, hopening] at this
    omega
  have hend : (((1 : Nat) : Int) + net body).toNat ≠ 0 := by
    have := hinside body.length (Nat.le_refl _)
    rw [List.take_length] at this
    omega
  refine ⟨outerLines (depthAfter (((1 : Nat) : Int) + net body).toNat closing) after,
    outerLines_subset _ _, ?_⟩
  rw [outerLines_append_of_net hbefore, outerLines, hone, outerLines_append_of_pos hinside,
    outerLines, if_neg hend]
  rfl

/-- The lines of a text without its comments and literals. -/
def codeLines (content : String) : List (List Char) := lines (scrub content.toList)

theorem calls_eq (content : String) : calls content =
    ⟨((outerLines 0 (codeLines content)).filter isTest).map shown,
      ((outerLines 0 (codeLines content)).filter isDescribe).map shown⟩ := rfl

theorem calls_wrapped {content : String}
    (h : codeLines content = before ++ opening :: (body ++ closing :: after))
    (haside : ∀ line ∈ before ++ after, IsAside line) (hcall : OpensCall ["describe"] opening)
    (hopening : net [opening] = 1) (hbody : ∀ j ≤ body.length, 1 ≤ net (opening :: body.take j)) :
    calls content = ⟨[], [shown opening]⟩ := by
  have hdescribe := isDescribe_iff.mpr hcall
  have htest : isTest opening = false :=
    Bool.eq_false_iff.mpr fun ht => by simp [not_isDescribe_of_isTest ht] at hdescribe
  obtain ⟨rest, hrest, houter⟩ := outerLines_wrapped
    (fun line hl => (haside line (List.mem_append_left _ hl)).net) hopening hbody closing after
  have hquiet : ∀ ls ⊆ before ++ after, ls.filter isTest = [] ∧ ls.filter isDescribe = [] := by
    intro ls hls
    constructor
    · refine List.filter_eq_nil_iff.mpr fun line hl ht => ?_
      exact (haside line (hls hl)).test (isTest_iff.mp ht)
    · refine List.filter_eq_nil_iff.mpr fun line hl hd => ?_
      exact (haside line (hls hl)).describe (isDescribe_iff.mp hd)
  obtain ⟨hbt, hbd⟩ := hquiet before (List.subset_append_left _ _)
  obtain ⟨hrt, hrd⟩ := hquiet rest
    (List.Subset.trans hrest (List.subset_append_right _ _))
  rw [calls_eq, h, houter]
  simp [List.filter_append, hbt, hbd, hrt, hrd, hdescribe, htest]

/-- The texts of those lines, in order and each once, that open a call of one of the names where the
running depth is as low as anywhere before. -/
def Reported (ls : List (List Char)) (names texts : List String) : Prop :=
  ∃ ks : List (Fin ls.length), ks.Pairwise (· < ·) ∧
    (∀ k, k ∈ ks ↔ OpensCall names ls[k] ∧ IsLowest ls k) ∧ texts = ks.map fun k => shown ls[k]

theorem reported_of_iff {p : List Char → Bool} (hp : ∀ line, p line = true ↔ OpensCall names line)
    (ls : List (List Char)) : Reported ls names (((outerLines 0 ls).filter p).map shown) := by
  obtain ⟨ks, hlt, hmem, hks⟩ := filter_outerLines p ls
  refine ⟨ks, hlt, fun k => ?_, ?_⟩
  · rw [hmem, hp]
  · rw [hks, List.map_map]
    rfl

/-- The calls outside all braces are the lines that open a call where the running depth is as low as
anywhere before; no line opens calls of both kinds. If the running depth is never negative, it is
zero there. So in a module whose lines are in one `describe`, but for some without braces and calls,
that call is the only one, whatever is in it. -/
theorem calls_outside_braces (content : String) :
    Reported (codeLines content) ["test", "it"] (calls content).tests ∧
    Reported (codeLines content) ["describe"] (calls content).describes ∧
    (∀ line, ¬ (OpensCall ["test", "it"] line ∧ OpensCall ["describe"] line)) ∧
    ((∀ k < (codeLines content).length, 0 ≤ depthAt (codeLines content) k) →
      ∀ k < (codeLines content).length,
        (IsLowest (codeLines content) k ↔ depthAt (codeLines content) k = 0)) ∧
    ∀ before opening body closing after,
      codeLines content = before ++ opening :: (body ++ closing :: after) →
      (∀ line ∈ before ++ after, IsAside line) →
      OpensCall ["describe"] opening → net [opening] = 1 →
      (∀ j ≤ body.length, 1 ≤ net (opening :: body.take j)) →
      calls content = ⟨[], [shown opening]⟩ := by
  refine ⟨reported_of_iff (fun _ => isTest_iff) _, reported_of_iff (fun _ => isDescribe_iff) _, ?_,
    fun h k hk => isLowest_iff_of_nonneg h hk, fun _ _ _ _ _ h => calls_wrapped h⟩
  rintro line ⟨ht, hd⟩
  have := not_isDescribe_of_isTest (isTest_iff.mpr ht)
  rw [isDescribe_iff.mpr hd] at this
  cases this

/-- Braces in literals, tests of both names, a call of the same name inside, and lines around it. -/
def wrappedText : String :=
  "import \x7b it \x7d from 't'\n describe (\"\x7b\", () => \x7b\n"
    ++ "  test('\x7d', f)\n  describe('b', () => \x7b it(1) \x7d)\n\x7d)\n// end\n"

theorem calls_wrappedText : (∃ line ∈ codeLines wrappedText, OpensCall ["test", "it"] line) ∧
    calls wrappedText = ⟨[], ["describe (\"\", () => \x7b"]⟩ := by
  have hlines : codeLines wrappedText = ["import \x7b it \x7d from \"\"".toList]
      ++ " describe (\"\", () => \x7b".toList :: (["  test(\"\", f)".toList,
        "  describe(\"\", () => \x7b it(1) \x7d)".toList] ++ "\x7d)".toList :: [[]]) := by
    decide
  obtain ⟨-, -, -, -, hcalls⟩ := calls_outside_braces wrappedText
  have haside : ∀ line, net [line] = 0 ∧ isTest line = false ∧ isDescribe line = false →
      IsAside line := by
    rintro line ⟨hnet, ht, hd⟩
    exact ⟨hnet, by simp [← isTest_iff, ht], by simp [← isDescribe_iff, hd]⟩
  refine ⟨?_, (hcalls _ _ _ _ _ hlines ?_ (isDescribe_iff.mp (by decide)) (by decide)
    (by decide)).trans (by decide)⟩
  · rw [hlines]
    exact ⟨"  test(\"\", f)".toList, by simp, isTest_iff.mp (by decide)⟩
  · intro line hline
    rcases List.mem_pair.mp hline with rfl | rfl
    · exact haside _ (by decide)
    · exact haside _ (by decide)

end ConventionLint.TestLayout
