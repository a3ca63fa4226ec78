import Mathlib.Data.List.Basic
import Multipass.Located

/-!
# The order of what is found

Sorting by lines keeps everything that was found, puts it in the order of the lines, and leaves
what was found on one line in the order in which it was found there.
-/

namespace Multipass

/-- Of what was found in two parts, each thing was found in one of them. -/
theorem append_eq_around {α : Type} {first second before after : List α} {located : α}
    (parts : first ++ second = before ++ located :: after) :
    (∃ between, first = before ++ located :: between ∧ after = between ++ second) ∨
      ∃ between, before = first ++ between ∧ second = between ++ located :: after := by
  rcases List.append_eq_append_iff.mp parts with ⟨between, inFront, behind⟩ | ⟨rest, whole, behind⟩
  · exact .inr ⟨between, inFront, behind⟩
  · rcases List.cons_eq_append_iff.mp behind with ⟨rfl, rfl⟩ | ⟨between, rfl, later⟩
    · exact .inr ⟨[], by simpa using whole.symm, rfl⟩
    · exact .inl ⟨between, whole, later⟩

namespace Located

variable {α : Type} {found : List (Located α)}

theorem sortByLine_perm (found : List (Located α)) : (sortByLine found).Perm found :=
  List.mergeSort_perm _ _

theorem mem_sortByLine {located : Located α} : located ∈ sortByLine found ↔ located ∈ found :=
  (sortByLine_perm found).mem_iff

theorem line_trans (first second third : Located α) :
    decide (first.line ≤ second.line) = true → decide (second.line ≤ third.line) = true →
      decide (first.line ≤ third.line) = true := by
  simp only [decide_eq_true_eq]
  exact Nat.le_trans

/-- Of two lines, one is not behind the other. -/
theorem line_total (first second : Located α) :
    (decide (first.line ≤ second.line) || decide (second.line ≤ first.line)) = true := by
  simp only [Bool.or_eq_true, decide_eq_true_eq]
  exact Nat.le_total _ _

theorem sortByLine_ascending (found : List (Located α)) :
    (sortByLine found).Pairwise (·.line ≤ ·.line) := by
  refine (List.pairwise_mergeSort line_trans line_total found).imp ?_
  exact fun ordered => of_decide_eq_true ordered

/-- On one line the order does not change. -/
theorem filter_line_sortByLine (found : List (Located α)) (line : Nat) :
    (sortByLine found).filter (·.line = line) = found.filter (·.line = line) := by
  have level : (found.filter (·.line = line)).Pairwise fun first second =>
      decide (first.line ≤ second.line) = true := by
    refine List.pairwise_of_forall_mem_list fun first isFirst second isSecond => ?_
    have firstLine := of_decide_eq_true (List.mem_filter.mp isFirst).2
    have secondLine := of_decide_eq_true (List.mem_filter.mp isSecond).2
    exact decide_eq_true (by omega)
  have within : (found.filter (·.line = line)).Sublist (sortByLine found) :=
    List.sublist_mergeSort line_trans line_total level List.filter_sublist
  have filtered := within.filter (·.line = line)
  simp only [List.filter_filter, Bool.and_self] at filtered
  exact (filtered.eq_of_length ((sortByLine_perm found).filter _).length_eq.symm).symm

end Located

end Multipass
