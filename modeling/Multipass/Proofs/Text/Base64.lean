import Mathlib.Data.List.Basic
import Multipass.Text.Base64

/-!
# Base64 is read back

A digit has the value that it was written for, so every group of bytes is read back from its
digits, and so is a text from the digits of its bytes.
-/

namespace Multipass.Text.Base64

theorem digitValue?_digit {value : Nat} (small : value < 64) :
    digitValue? (digit value) = some value := by
  have each : ∀ value < 64, digitValue? (digit value) = some value := by decide
  exact each value small

theorem digit_ne_fill {value : Nat} (small : value < 64) : digit value ≠ '=' := by
  have each : ∀ value < 64, digit value ≠ '=' := by decide
  exact each value small

section Groups

variable (a b c : UInt8)

theorem first_lt : a.toNat / 4 < 64 := by
  have := a.toNat_lt
  omega

theorem second_lt : a.toNat % 4 * 16 + b.toNat / 16 < 64 := by
  have := b.toNat_lt
  omega

theorem third_lt : b.toNat % 16 * 4 + c.toNat / 64 < 64 := by
  have := c.toNat_lt
  omega

theorem fourth_lt : c.toNat % 64 < 64 :=
  Nat.mod_lt _ (by decide)

theorem ofNat_first : UInt8.ofNat (a.toNat / 4 * 4 + (a.toNat % 4 * 16 + b.toNat / 16) / 16) = a := by
  have := b.toNat_lt
  rw [show a.toNat / 4 * 4 + (a.toNat % 4 * 16 + b.toNat / 16) / 16 = a.toNat by omega]
  exact UInt8.ofNat_toNat

theorem ofNat_second : UInt8.ofNat ((a.toNat % 4 * 16 + b.toNat / 16) % 16 * 16 +
    (b.toNat % 16 * 4 + c.toNat / 64) / 4) = b := by
  have := b.toNat_lt
  have := c.toNat_lt
  rw [show (a.toNat % 4 * 16 + b.toNat / 16) % 16 * 16 + (b.toNat % 16 * 4 + c.toNat / 64) / 4 =
    b.toNat by omega]
  exact UInt8.ofNat_toNat

theorem ofNat_third : UInt8.ofNat ((b.toNat % 16 * 4 + c.toNat / 64) % 4 * 64 + c.toNat % 64) = c := by
  have := c.toNat_lt
  rw [show (b.toNat % 16 * 4 + c.toNat / 64) % 4 * 64 + c.toNat % 64 = c.toNat by omega]
  exact UInt8.ofNat_toNat

end Groups

/-- Four digits of which the last is no fill are a whole group. -/
theorem decode?_cons {w x y z : Char} (notFill : z ≠ '=') (rest : List Char) :
    decode? (w :: x :: y :: z :: rest) = (do
      let w ← digitValue? w
      let x ← digitValue? x
      let y ← digitValue? y
      let z ← digitValue? z
      let rest ← decode? rest
      some (.ofNat (w * 4 + x / 16) :: .ofNat (x % 16 * 16 + y / 4) :: .ofNat (y % 4 * 64 + z) :: rest)) := by
  rw [decode?]
  · rintro - rfl -
    exact notFill rfl
  · rintro rfl -
    exact notFill rfl

theorem decode?_encode (bytes : List UInt8) : decode? (encode bytes) = some bytes := by
  fun_induction encode bytes with
  | case1 => rfl
  | case2 a =>
    have second := second_lt a 0
    have whole := ofNat_first a 0
    simp only [UInt8.toNat_zero, Nat.zero_div, Nat.add_zero] at second whole
    simp only [decode?, digitValue?_digit (first_lt a), digitValue?_digit second,
      Option.bind_eq_bind, Option.bind_some, Nat.mul_mod_left, whole, if_true]
  | case3 a b =>
    have third := third_lt b 0
    have whole := ofNat_second a b 0
    simp only [UInt8.toNat_zero, Nat.zero_div, Nat.add_zero] at third whole
    rw [decode?]
    · simp only [digitValue?_digit (first_lt a), digitValue?_digit (second_lt a b),
        digitValue?_digit third, Option.bind_eq_bind, Option.bind_some, Nat.mul_mod_left,
        ofNat_first, whole, if_true]
    · exact digit_ne_fill third
  | case4 a b c rest ih =>
    rw [decode?_cons (digit_ne_fill (fourth_lt c)), digitValue?_digit (first_lt a),
      digitValue?_digit (second_lt a b), digitValue?_digit (third_lt b c),
      digitValue?_digit (fourth_lt c), ih]
    simp only [Option.bind_eq_bind, Option.bind_some, ofNat_first, ofNat_second, ofNat_third]

theorem toList_loop (bytes : ByteArray) (index : Nat) (read : List UInt8) :
    ByteArray.toList.loop bytes index read = read.reverse ++ bytes.data.toList.drop index := by
  fun_induction ByteArray.toList.loop bytes index read with
  | case1 index read inside ih =>
    have here : index < bytes.data.toList.length := inside
    have byte : bytes.get! index = bytes.data.toList[index] :=
      getElem!_pos bytes.data index here
    rw [ih, List.drop_eq_getElem_cons here, List.reverse_cons, List.append_assoc, byte]
    rfl
  | case2 index read outside =>
    rw [List.drop_of_length_le (Nat.le_of_not_lt outside), List.append_nil]

/-- The list of the bytes of an array is the array. -/
theorem mk_toList (bytes : ByteArray) : ⟨bytes.toList.toArray⟩ = bytes := by
  rw [ByteArray.toList, toList_loop]
  rfl

theorem fromUTF8?_toUTF8 (text : String) : String.fromUTF8? text.toUTF8 = some text := by
  rw [String.fromUTF8?, String.toUTF8_eq_toByteArray, dif_pos text.isValidUTF8]
  rfl

/-- A text is read back from its base64 text. -/
theorem decodeText?_encodeText (text : String) : decodeText? (encodeText text) = some text := by
  rw [decodeText?, encodeText, String.toList_ofList, decode?_encode, Option.bind_eq_bind,
    Option.bind_some, mk_toList, fromUTF8?_toUTF8]

end Multipass.Text.Base64
