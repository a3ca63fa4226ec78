import Mathlib.Algebra.Group.Nat.Defs
import Multipass.Attribution
import Multipass.Proofs.Fallible
import Multipass.Proofs.LineMap
import Multipass.Proofs.Overflow

/-!
# The attribution of a line of the expanded text

The number of Common's lines alone decides to which pass a line belongs; a line that
is mapped gets exactly the line it is mapped to.
-/

namespace Multipass.Attribution

variable {attribution : Attribution} {index : Nat}

theorem expandedLine_fst (other : attribution.pass ≠ .common) :
    (attribution.expandedLine (index + 1 : Nat)).1 =
      if index + 1 ≤ attribution.commonLines then .common else attribution.pass := by
  unfold expandedLine
  rw [if_neg (by omega), Int.toNat_natCast]
  by_cases inCommon : index + 1 ≤ attribution.commonLines
  · have hasCommon : attribution.pass ≠ .common ∧ 0 < attribution.commonLines :=
      ⟨other, by omega⟩
    rw [if_pos ⟨hasCommon, inCommon⟩, if_pos inCommon]
  · rw [if_neg (fun both => inCommon both.2), if_neg inCommon]
    split <;> rfl

/-- A line with an entry gets the line of its entry, in Common and in the pass. -/
theorem expandedLine_snd {line : Nat} (entry : (index + 1, line) ∈ attribution.lineMap.entries)
    (positive : 1 ≤ line) : (attribution.expandedLine (index + 1 : Nat)).2 = line := by
  unfold expandedLine
  rw [if_neg (by omega), Int.toNat_natCast]
  have fromStart := LineMap.nearest?_of_mem entry (Nat.le_add_left 1 index)
  by_cases inCommon : (attribution.pass ≠ .common ∧ 0 < attribution.commonLines) ∧
      index + 1 ≤ attribution.commonLines
  · rw [if_pos inCommon, fromStart, Option.getD_some]
    exact Nat.max_eq_left positive
  · rw [if_neg inCommon]
    by_cases hasCommon : attribution.pass ≠ .common ∧ 0 < attribution.commonLines
    · have beyond : attribution.commonLines + 1 ≤ index + 1 :=
        Nat.succ_le_of_lt (Nat.lt_of_not_le fun inside => inCommon ⟨hasCommon, inside⟩)
      rw [if_pos hasCommon]
      simp only
      rw [LineMap.nearest?_of_mem entry beyond, Option.getD_some]
      exact Nat.max_eq_left positive
    · rw [if_neg hasCommon, fromStart, Option.getD_some]
      exact Nat.max_eq_left positive

/-! ## The regions of the expanded text -/

theorem expandedLine_of_header {line : Int} (before : line < 1) :
    attribution.expandedLine line = (attribution.pass, 1) := by
  rw [expandedLine, if_pos before]

theorem expandedLine_of_inside (other : attribution.pass ≠ .common) {output : Nat}
    (positive : 1 ≤ output) (inside : output ≤ attribution.commonLines) :
    attribution.expandedLine output =
      (.common, max ((attribution.lineMap.nearest? output 1).getD output) 1) := by
  have hasCommon : attribution.pass ≠ .common ∧ 0 < attribution.commonLines :=
    ⟨other, Nat.lt_of_lt_of_le positive inside⟩
  rw [expandedLine, if_neg (by omega), Int.toNat_natCast]
  exact if_pos ⟨hasCommon, inside⟩

/-- The lines in front of the pass that are left out where lines are only counted: those of
    Common and the empty line after it. -/
def skipped (attribution : Attribution) : Nat :=
  if attribution.commonLines = 0 then 0 else attribution.commonLines + 1

theorem expandedLine_of_beyond (other : attribution.pass ≠ .common) {output : Nat}
    (beyond : attribution.commonLines < output) :
    attribution.expandedLine output =
      (attribution.pass, max ((attribution.lineMap.nearest? output
        (attribution.commonLines + 1)).getD (output - attribution.skipped)) 1) := by
  rw [expandedLine, if_neg (by omega), Int.toNat_natCast, skipped]
  simp only
  rw [if_neg fun both => Nat.not_le_of_lt beyond both.2]
  by_cases alone : attribution.commonLines = 0
  · rw [if_neg fun hasCommon => Nat.ne_of_gt hasCommon.2 alone, if_pos alone, alone]
    rfl
  · rw [if_pos ⟨other, Nat.pos_of_ne_zero alone⟩, if_neg alone]

/-- Lines are counted from one. -/
theorem one_le_expandedLine_snd (line : Int) : 1 ≤ (attribution.expandedLine line).2 := by
  unfold expandedLine
  split
  · exact Nat.le_refl 1
  · simp only
    split
    · exact Nat.le_max_right _ 1
    · split
      · exact Nat.le_max_right _ 1
      · exact Nat.le_max_right _ 1

/-! ## Lines of the compiled text -/

theorem finalLine_eq_map (attribution : Attribution) (line : Nat) :
    attribution.finalLine line = attribution.expandedLine <$>
      Checked.sub (Checked.signed line) (Checked.signed attribution.startLine) := by
  rw [finalLine]
  cases Checked.sub (Checked.signed line) (Checked.signed attribution.startLine) <;> rfl

theorem one_le_of_finalLine {line : Nat} {place : PassName × Nat}
    (reported : attribution.finalLine line = .ok place) : 1 ≤ place.2 := by
  rw [finalLine_eq_map, map_eq_ok_iff] at reported
  obtain ⟨difference, -, rfl⟩ := reported
  exact one_le_expandedLine_snd difference

section Height

variable (height : attribution.startLine < 2 ^ 63)

include height

/-- As long as line numbers do not run out, a line of the compiled text is a line of the
    expanded text, or of the head if it is not a positive one. -/
theorem finalLine_eq {line : Nat} (small : line < 2 ^ 63) :
    attribution.finalLine line =
      .ok (attribution.expandedLine ((line : Int) - attribution.startLine)) := by
  rw [finalLine_eq_map, Checked.signed_of_lt small, Checked.signed_of_lt height,
    Checked.sub_of_lt small height]
  rfl

/-- A number that does not overflow, though it is negative as a signed word, counts as a line
    of the head. -/
theorem finalLine_of_le {line : Nat} (great : 2 ^ 63 ≤ line) (isWord : line < 2 ^ 64) :
    attribution.finalLine line =
      if line < 2 ^ 63 + attribution.startLine then .error .subtraction
      else .ok (attribution.pass, 1) := by
  rw [finalLine_eq_map, Checked.signed_of_le great isWord, Checked.signed_of_lt height,
    Checked.sub_eq]
  by_cases overflows : line < 2 ^ 63 + attribution.startLine
  · rw [if_neg (by omega), if_pos overflows]
    rfl
  · rw [if_pos (by omega), if_neg overflows]
    exact congrArg Except.ok (expandedLine_of_header (by omega))

/-- Only numbers from `2 ^ 63` on overflow. -/
theorem le_of_finalLine_error {line : Nat} {overflow : Overflow}
    (overflows : attribution.finalLine line = .error overflow) : 2 ^ 63 ≤ line := by
  by_contra small
  rw [finalLine_eq height (Nat.lt_of_not_le small)] at overflows
  cases overflows

end Height

/-- A line of the compiled text below the scaffold is the line of the expanded text, if line
    numbers do not run out. -/
theorem finalLine_add (small : attribution.startLine + (index + 1) < 2 ^ 63) :
    attribution.finalLine (attribution.startLine + (index + 1)) =
      .ok (attribution.expandedLine (index + 1 : Nat)) := by
  have difference : ((attribution.startLine + (index + 1) : Nat) : Int) - attribution.startLine =
      (index + 1 : Nat) := by omega
  rw [finalLine_eq (Nat.lt_of_le_of_lt (Nat.le_add_right _ _) small) small, difference]

theorem finalLine_error {line : Nat} {overflow : Overflow}
    (overflows : attribution.finalLine line = .error overflow) : overflow = .subtraction := by
  rw [finalLine_eq_map, map_eq_error_iff, Checked.sub_eq] at overflows
  split at overflows
  · cases overflows
  · cases overflows
    rfl

end Multipass.Attribution
