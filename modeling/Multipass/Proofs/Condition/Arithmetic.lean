import Mathlib.Data.Int.Bitwise
import Multipass.Condition.Value

/-!
# The arithmetic of conditions, on unbounded integers

Each operator is an operation on the integers whose result is brought back into 64 bits.
Nothing else is known about words of 64 bits where the value of a condition is stated.
-/

namespace Multipass.Condition

/-- One for a statement that holds, zero for one that does not. -/
def indicator (holds : Prop) [Decidable holds] : Int :=
  if holds then 1 else 0

/-- What an operator makes of two integers, before the result wraps around. Bits are those
    of two's complement, shift counts are taken modulo 64, and division truncates. -/
def BinaryOp.onIntegers (op : BinaryOp) (left right : Int) : Int :=
  match op with
  | .or => indicator (left ≠ 0 ∨ right ≠ 0)
  | .and => indicator (left ≠ 0 ∧ right ≠ 0)
  | .bitOr => Int.lor left right
  | .bitXor => Int.xor left right
  | .bitAnd => Int.land left right
  | .equal => indicator (left = right)
  | .notEqual => indicator (left ≠ right)
  | .less => indicator (left < right)
  | .greater => indicator (right < left)
  | .lessEqual => indicator (left ≤ right)
  | .greaterEqual => indicator (right ≤ left)
  | .shiftLeft => left * 2 ^ (right % 64).toNat
  | .shiftRight => left / 2 ^ (right % 64).toNat
  | .add => left + right
  | .subtract => left - right
  | .multiply => left * right
  | .divide => left.tdiv right
  | .remainder => left.tmod right

/-- The operators that have no result when the right operand is zero. -/
def BinaryOp.Divides (op : BinaryOp) : Prop :=
  op = .divide ∨ op = .remainder

/-- Operators with one operand. -/
inductive FrontOp where
  | not | complement | negate | keep
  deriving DecidableEq, Repr

/-- The operator that is written for it. -/
def FrontOp.operator : FrontOp → Operator
  | .not => .not
  | .complement => .complement
  | .negate => .binary .subtract
  | .keep => .binary .add

/-- What it gives on the integers, before the value is cut to 64 bits. -/
def FrontOp.onInteger (op : FrontOp) (operand : Int) : Int :=
  match op with
  | .not => indicator (operand = 0)
  | .complement => Int.lnot operand
  | .negate => -operand
  | .keep => operand

/-- The value of an operator with two operands. -/
def BinaryOp.value (op : BinaryOp) (left right : Int64) : Int64 :=
  .ofInt (op.onIntegers left.toInt right.toInt)

/-- The value of an operator with one operand. -/
def FrontOp.value (op : FrontOp) (operand : Int64) : Int64 :=
  .ofInt (op.onInteger operand.toInt)

/-! ## Bits -/

theorem getLsbD_ofInt (width : Nat) (number : Int) (index : Nat) :
    (BitVec.ofInt width number).getLsbD index =
      (decide (index < width) && number.testBit index) := by
  cases number with
  | ofNat magnitude =>
    rw [Int.ofNat_eq_natCast, BitVec.ofInt_natCast, BitVec.getLsbD_ofNat]
    rfl
  | negSucc magnitude =>
    rw [BitVec.ofInt_negSucc_eq_not_ofNat, BitVec.getLsbD_not, BitVec.getLsbD_ofNat]
    cases decide (index < width) <;> rfl

theorem getLsbD_toBitVec (word : Int64) {index : Nat} (inside : index < 64) :
    word.toBitVec.getLsbD index = word.toInt.testBit index := by
  have bits := getLsbD_ofInt 64 word.toBitVec.toInt index
  rw [BitVec.ofInt_toInt, decide_eq_true inside, Bool.true_and] at bits
  exact bits

theorem eq_ofInt_of_testBit {word : Int64} {number : Int}
    (bits : ∀ index < 64, word.toBitVec.getLsbD index = number.testBit index) :
    word = .ofInt number := by
  rw [← Int64.toBitVec_inj, Int64.toBitVec_ofInt]
  refine BitVec.eq_of_getLsbD_eq fun index inside => ?_
  rw [getLsbD_ofInt, decide_eq_true inside, Bool.true_and, bits index inside]

section Words

variable (left right : Int64)

theorem and_eq_ofInt : left &&& right = .ofInt (Int.land left.toInt right.toInt) := by
  refine eq_ofInt_of_testBit fun index inside => ?_
  rw [Int64.toBitVec_and, BitVec.getLsbD_and, getLsbD_toBitVec left inside,
    getLsbD_toBitVec right inside, Int.testBit_land]

theorem or_eq_ofInt : left ||| right = .ofInt (Int.lor left.toInt right.toInt) := by
  refine eq_ofInt_of_testBit fun index inside => ?_
  rw [Int64.toBitVec_or, BitVec.getLsbD_or, getLsbD_toBitVec left inside,
    getLsbD_toBitVec right inside, Int.testBit_lor]

theorem xor_eq_ofInt : left ^^^ right = .ofInt (Int.xor left.toInt right.toInt) := by
  refine eq_ofInt_of_testBit fun index inside => ?_
  rw [Int64.toBitVec_xor, BitVec.getLsbD_xor, getLsbD_toBitVec left inside,
    getLsbD_toBitVec right inside, Int.testBit_lxor]

theorem not_eq_ofInt : ~~~left = .ofInt (Int.lnot left.toInt) := by
  refine eq_ofInt_of_testBit fun index inside => ?_
  rw [Int64.toBitVec_not, BitVec.getLsbD_not, getLsbD_toBitVec left inside,
    decide_eq_true inside, Bool.true_and, Int.testBit_lnot]

/-! ## Shifts -/

/-- A shift count modulo 64 is never negative. -/
theorem toNat_smod : (right.toBitVec.smod 64).toNat = (right.toInt % 64).toNat := by
  have same : (right.toBitVec.smod 64).toInt = right.toInt % 64 := by
    rw [BitVec.toInt_smod]
    exact Int.fmod_eq_emod_of_nonneg _ (by decide)
  have unsigned : (right.toBitVec.smod 64).msb = false := by
    refine Bool.eq_false_iff.mpr fun negative => ?_
    have below := BitVec.toInt_neg_of_msb_true negative
    omega
  rw [← same, BitVec.toNat_toInt_of_msb _ unsigned]

theorem ofNat_two_pow (width count : Nat) :
    BitVec.ofInt width (2 ^ count) = BitVec.twoPow width count := by
  have cast : (2 ^ count : Int) = ((2 ^ count : Nat) : Int) := by
    push_cast
    rfl
  refine BitVec.eq_of_toNat_eq ?_
  rw [cast, BitVec.ofInt_natCast, BitVec.toNat_ofNat, BitVec.toNat_twoPow]

theorem shiftLeft_eq_ofInt :
    left <<< right = .ofInt (left.toInt * 2 ^ (right.toInt % 64).toNat) := by
  rw [← Int64.toBitVec_inj, Int64.toBitVec_shiftLeft, Int64.toBitVec_ofInt, ← toNat_smod,
    BitVec.shiftLeft_eq', BitVec.shiftLeft_eq_mul_twoPow, BitVec.ofInt_mul, ofNat_two_pow]
  show _ = BitVec.ofInt 64 left.toBitVec.toInt * _
  rw [BitVec.ofInt_toInt]

theorem shiftRight_eq_ofInt :
    left >>> right = .ofInt (left.toInt / 2 ^ (right.toInt % 64).toNat) := by
  have shifted : (left >>> right).toInt = left.toInt / 2 ^ (right.toInt % 64).toNat := by
    show (left >>> right).toBitVec.toInt = left.toBitVec.toInt / _
    rw [Int64.toBitVec_shiftRight, BitVec.toInt_sshiftRight', Int.shiftRight_eq_div_pow,
      toNat_smod]
    push_cast
    rfl
  rw [← shifted, Int64.ofInt_toInt]

/-! ## Division -/

theorem div_eq_ofInt : left / right = .ofInt (left.toInt.tdiv right.toInt) := by
  rw [Int64.ofInt_tdiv left.le_toInt left.toInt_le right.le_toInt right.toInt_le,
    Int64.ofInt_toInt, Int64.ofInt_toInt]

theorem mod_eq_ofInt : left % right = .ofInt (left.toInt.tmod right.toInt) := by
  rw [Int64.ofInt_tmod left.le_toInt left.toInt_le right.le_toInt right.toInt_le,
    Int64.ofInt_toInt, Int64.ofInt_toInt]

end Words

theorem truth_eq_ofInt {holds : Prop} [Decidable holds] {found : Bool}
    (same : found = true ↔ holds) : truth found = .ofInt (indicator holds) := by
  by_cases here : holds
  · rw [indicator, if_pos here, same.mpr here]
    rfl
  · rw [indicator, if_neg here, Bool.eq_false_iff.mpr (mt same.mp here)]
    rfl

theorem toInt_ne_zero_iff {word : Int64} : word ≠ 0 ↔ word.toInt ≠ 0 :=
  not_congr Int64.toInt_inj.symm

section Operators

variable {op : BinaryOp} {left right : Int64}

theorem apply_of_not_divides (whole : ¬ op.Divides) :
    op.apply left right = .ok (op.value left right) := by
  cases op with
  | or => exact congrArg Except.ok (truth_eq_ofInt (by simp [toInt_ne_zero_iff]))
  | and => exact congrArg Except.ok (truth_eq_ofInt (by simp [toInt_ne_zero_iff]))
  | bitOr => exact congrArg Except.ok (or_eq_ofInt left right)
  | bitXor => exact congrArg Except.ok (xor_eq_ofInt left right)
  | bitAnd => exact congrArg Except.ok (and_eq_ofInt left right)
  | equal => exact congrArg Except.ok (truth_eq_ofInt (by simp [Int64.toInt_inj]))
  | notEqual => exact congrArg Except.ok (truth_eq_ofInt (by simp [Int64.toInt_inj]))
  | less => exact congrArg Except.ok (truth_eq_ofInt (by simp [Int64.lt_iff_toInt_lt]))
  | greater => exact congrArg Except.ok (truth_eq_ofInt (by simp [Int64.lt_iff_toInt_lt]))
  | lessEqual => exact congrArg Except.ok (truth_eq_ofInt (by simp [Int64.le_iff_toInt_le]))
  | greaterEqual => exact congrArg Except.ok (truth_eq_ofInt (by simp [Int64.le_iff_toInt_le]))
  | shiftLeft => exact congrArg Except.ok (shiftLeft_eq_ofInt left right)
  | shiftRight => exact congrArg Except.ok (shiftRight_eq_ofInt left right)
  | add => simp [BinaryOp.apply, BinaryOp.value, BinaryOp.onIntegers]
  | subtract => simp [BinaryOp.apply, BinaryOp.value, BinaryOp.onIntegers]
  | multiply => simp [BinaryOp.apply, BinaryOp.value, BinaryOp.onIntegers]
  | divide => exact absurd (.inl rfl) whole
  | remainder => exact absurd (.inr rfl) whole

theorem apply_of_divides (divides : op.Divides) :
    op.apply left right =
      if right = 0 then .error .divisionByZero else .ok (op.value left right) := by
  rcases divides with rfl | rfl
  · rw [BinaryOp.apply, div_eq_ofInt]
    rfl
  · rw [BinaryOp.apply, mod_eq_ofInt]
    rfl

/-- An operator gives its value, unless it divides by zero. -/
theorem apply_eq_ok_iff {result : Int64} :
    op.apply left right = .ok result ↔
      (op.Divides → right ≠ 0) ∧ op.value left right = result := by
  by_cases divides : op.Divides
  · rw [apply_of_divides divides]
    by_cases zero : right = 0
    · rw [if_pos zero]
      simp [divides, zero]
    · rw [if_neg zero]
      simp [zero]
  · rw [apply_of_not_divides divides]
    simp [divides]

end Operators

theorem applyFront?_operator (front : FrontOp) : front.operator.applyFront? = some front.value := by
  cases front with
  | not =>
    refine congrArg some ?_
    funext operand
    exact truth_eq_ofInt (by simp [← Int64.toInt_inj])
  | complement =>
    refine congrArg some ?_
    funext operand
    exact not_eq_ofInt operand
  | negate =>
    refine congrArg some ?_
    funext operand
    simp [FrontOp.value, FrontOp.onInteger]
  | keep =>
    refine congrArg some ?_
    funext operand
    simp [FrontOp.value, FrontOp.onInteger]

/-- No other operator stands in front of an operand. -/
theorem exists_front_of_applyFront? {op : Operator} {apply : Int64 → Int64}
    (found : op.applyFront? = some apply) : ∃ front : FrontOp, op = front.operator := by
  cases op with
  | not => exact ⟨.not, rfl⟩
  | complement => exact ⟨.complement, rfl⟩
  | binary op =>
    cases op with
    | subtract => exact ⟨.negate, rfl⟩
    | add => exact ⟨.keep, rfl⟩
    | _ => cases found

end Multipass.Condition
