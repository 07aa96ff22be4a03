import ConventionLint.Lint

/-! The order of diagnostics: it is a linear one, up to their messages. -/
namespace ConventionLint

/-- A diagnostic stands before another one: its file comes first, or it is of the same file and its
rule does. -/
def Diagnostic.Precedes (a b : Diagnostic) : Prop :=
  a.file < b.file ∨ a.file = b.file ∧ a.rule < b.rule

instance (a b : Diagnostic) : Decidable (a.Precedes b) :=
  inferInstanceAs (Decidable (_ ∨ _))

namespace Lint

variable {g : Registry} {start finish : Data.Number} {y z : Diagnostic}

theorem before_iff {a b : Diagnostic} : before a b = true ↔
    if a.file = b.file then a.rule ≤ b.rule else a.file ≤ b.file := by
  unfold before
  split <;> exact decide_eq_true_iff

theorem before_trans (a b e : Diagnostic) (hab : before a b = true) (hbe : before b e = true) :
    before a e = true := by
  rw [before_iff] at hab hbe ⊢
  by_cases h : a.file = b.file <;> by_cases h' : b.file = e.file
  · rw [if_pos h] at hab
    rw [if_pos h'] at hbe
    rw [if_pos (h.trans h')]
    exact String.le_trans hab hbe
  · rw [if_neg h'] at hbe
    rw [h, if_neg h']
    exact hbe
  · rw [if_neg h] at hab
    rw [← h', if_neg h]
    exact hab
  · rw [if_neg h] at hab
    rw [if_neg h'] at hbe
    -- if the outer two are of one file, so is the one between them
    by_cases he : a.file = e.file
    · rw [← he] at hbe
      exact (h (String.le_antisymm hab hbe)).elim
    · rw [if_neg he]
      exact String.le_trans hab hbe

theorem before_total (a b : Diagnostic) : (before a b || before b a) = true := by
  rw [Bool.or_eq_true, before_iff, before_iff]
  by_cases h : a.file = b.file
  · rw [if_pos h, if_pos h.symm]
    exact String.le_total a.rule b.rule
  · rw [if_neg h, if_neg (Ne.symm h)]
    exact String.le_total a.file b.file

/-- Two diagnostics that stand before each other have the same file and rule. -/
theorem eq_of_before (h : before y z = true) (h' : before z y = true) :
    y.file = z.file ∧ y.rule = z.rule := by
  rw [before_iff] at h h'
  by_cases hf : y.file = z.file
  · rw [if_pos hf] at h
    rw [if_pos hf.symm] at h'
    exact ⟨hf, String.le_antisymm h h'⟩
  · rw [if_neg hf] at h
    rw [if_neg (Ne.symm hf)] at h'
    exact (hf (String.le_antisymm h h')).elim

/-- Two lists in order that have the same diagnostics are the same, if file and rule tell these
apart. -/
theorem eq_of_perm {l l' : List Diagnostic} (h : l.Pairwise fun a b => before a b = true)
    (h' : l'.Pairwise fun a b => before a b = true) (hp : l.Perm l')
    (hkey : ∀ y ∈ l, ∀ z ∈ l, y.file = z.file → y.rule = z.rule → y = z) : l = l' := by
  refine List.Perm.eq_of_pairwise ?_ h h' hp
  intro y z hy hz hyz hzy
  obtain ⟨hfile, hrule⟩ := eq_of_before hyz hzy
  exact hkey y hy z (hp.mem_iff.mpr hz) hfile hrule

theorem pairwise_report {t : Tally} : (report g start finish t).diagnostics.Pairwise
    fun a b => before a b = true :=
  List.pairwise_mergeSort before_trans before_total _

end Lint

end ConventionLint
