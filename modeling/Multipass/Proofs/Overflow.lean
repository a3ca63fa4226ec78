import Mathlib.Algebra.Group.Int.Defs
import Mathlib.Algebra.Group.Nat.Defs
import Multipass.Overflow

/-!
# What does not overflow

A word below `2 ^ 63` is the same when it is read as a signed one, and the difference of two
such words always fits.
-/

namespace Multipass.Checked

variable {word left right : Nat}

theorem signed_of_lt (small : word < 2 ^ 63) : signed word = word := by
  have size : UInt64.size = 2 ^ 64 := rfl
  unfold signed
  apply Int.bmod_eq_of_le_mul_two <;> omega

theorem signed_of_le (great : 2 ^ 63 ≤ word) (isWord : word < 2 ^ 64) :
    signed word = (word : Int) - 2 ^ 64 := by
  have size : UInt64.size = 2 ^ 64 := rfl
  unfold signed
  rw [← Int.sub_bmod_right, size]
  apply Int.bmod_eq_of_le_mul_two <;> omega

/-- A difference fits if it is a signed word. -/
theorem sub_eq (left right : Int) :
    sub left right =
      if -2 ^ 63 ≤ left - right ∧ left - right < 2 ^ 63 then .ok (left - right)
      else .error .subtraction := by
  rw [sub, Int64.toInt_minValue, Int64.toInt_maxValue]
  congr 2
  exact propext (by omega)

theorem sub_of_lt (small : left < 2 ^ 63) (small' : right < 2 ^ 63) :
    sub left right = .ok ((left : Int) - right) := by
  rw [sub_eq, if_pos]
  constructor <;> omega

end Multipass.Checked
