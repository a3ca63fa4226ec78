import Multipass.Json.Scalar
import Multipass.Json.Value

/-!
# Written texts are read back

A text is written between quotes with escapes, and reading it gives every character back, the
controls, the quotes and the backslashes among them.
-/

namespace Multipass.Json

theorem hexValue?_digitChar {digit : Nat} (small : digit < 16) :
    hexValue? (Nat.digitChar digit) = some digit := by
  have each : ∀ digit < 16, hexValue? (Nat.digitChar digit) = some digit := by decide
  exact each digit small

/-- A control is read from its code point. -/
theorem escape_control {c : Char} (control : c.toNat < 0x20) (rest : List Char) :
    escape ('u' :: '0' :: '0' :: Nat.digitChar (c.toNat / 16) ::
      Nat.digitChar (c.toNat % 16) :: rest) = .ok (c, rest) := by
  have zero : hexValue? '0' = some 0 := rfl
  have high := hexValue?_digitChar (show c.toNat / 16 < 16 by omega)
  have low := hexValue?_digitChar (show c.toNat % 16 < 16 by omega)
  have unit : codeUnit ('0' :: '0' :: Nat.digitChar (c.toNat / 16) ::
      Nat.digitChar (c.toNat % 16) :: rest) = .ok (c.toNat, rest) := by
    simp only [codeUnit, List.mapM_cons, List.mapM_nil, zero, high, low, Option.pure_def,
      Option.bind_eq_bind, Option.bind_some, List.foldl_cons, List.foldl_nil]
    rw [show ((0 * 16 + 0) * 16 + 0) * 16 + c.toNat / 16 = c.toNat / 16 by omega,
      Nat.div_add_mod']
  have notTrailing : isTrailingSurrogate c.toNat = false := by
    simp only [isTrailingSurrogate, Bool.and_eq_false_iff, decide_eq_false_iff_not]
    omega
  have notLeading : isLeadingSurrogate c.toNat = false := by
    simp only [isLeadingSurrogate, Bool.and_eq_false_iff, decide_eq_false_iff_not]
    omega
  simp [escape, codePointEscape, unit, notTrailing, notLeading]

section Tails

variable {text rest value last : List Char} {c : Char}

theorem textTail_escaped (escapes : escape text = .ok (c, rest))
    (read : textTail rest = .ok (value, last)) :
    textTail ('\\' :: text) = .ok (c :: value, last) := by
  rw [textTail, if_neg (by decide), if_pos rfl]
  split
  · rename_i problem failed
    rw [escapes] at failed
    cases failed
  · rename_i escaped after taken
    rw [escapes] at taken
    cases taken
    rw [read]

theorem textTail_plain (notQuote : c ≠ '"') (notEscape : c ≠ '\\') (printable : ¬ c.toNat < 0x20)
    (read : textTail rest = .ok (value, last)) :
    textTail (c :: rest) = .ok (c :: value, last) := by
  rw [textTail, if_neg notQuote, if_neg notEscape, if_neg printable, read]

theorem textTail_escapeChar (c : Char) (read : textTail rest = .ok (value, last)) :
    textTail (escapeChar c ++ rest) = .ok (c :: value, last) := by
  unfold escapeChar
  split
  case h_8 notQuote notEscape _ _ _ _ _ =>
    split
    · rename_i control
      exact textTail_escaped (escape_control control rest) read
    · rename_i printable
      exact textTail_plain notQuote notEscape printable read
  all_goals exact textTail_escaped rfl read

theorem textTail_flatMap_escapeChar (text rest : List Char) :
    textTail (text.flatMap escapeChar ++ '"' :: rest) = .ok (text, rest) := by
  induction text with
  | nil => rw [List.flatMap_nil, List.nil_append, textTail, if_pos rfl]
  | cons c text ih =>
    rw [List.flatMap_cons, List.append_assoc]
    exact textTail_escapeChar c ih

end Tails

end Multipass.Json
