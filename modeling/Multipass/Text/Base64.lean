/-!
# Base64

Three bytes are written as four digits of the standard alphabet. A shorter group at the
end is filled up with `=`. Only texts that are written this way are read: the fill is
required, and the bits it leaves over are zero.
-/

namespace Multipass.Text.Base64

/-- The digit of a six-bit value. -/
def digit (value : Nat) : Char :=
  if value < 26 then Char.ofNat ('A'.toNat + value)
  else if value < 52 then Char.ofNat ('a'.toNat + (value - 26))
  else if value < 62 then Char.ofNat ('0'.toNat + (value - 52))
  else if value = 62 then '+'
  else '/'

/-- The six-bit value of a digit. -/
def digitValue? (c : Char) : Option Nat :=
  if c.isUpper then some (c.toNat - 'A'.toNat)
  else if c.isLower then some (c.toNat - 'a'.toNat + 26)
  else if c.isDigit then some (c.toNat - '0'.toNat + 52)
  else if c = '+' then some 62
  else if c = '/' then some 63
  else none

/-- The base64 text of bytes. -/
def encode : List UInt8 → List Char
  | [] => []
  | [a] =>
    [digit (a.toNat / 4), digit (a.toNat % 4 * 16), '=', '=']
  | [a, b] =>
    [digit (a.toNat / 4), digit (a.toNat % 4 * 16 + b.toNat / 16), digit (b.toNat % 16 * 4), '=']
  | a :: b :: c :: rest =>
    digit (a.toNat / 4) :: digit (a.toNat % 4 * 16 + b.toNat / 16) ::
      digit (b.toNat % 16 * 4 + c.toNat / 64) :: digit (c.toNat % 64) :: encode rest

/-- The bytes that a base64 text stands for, if it is written as the encoding writes it. -/
def decode? : List Char → Option (List UInt8)
  | [] => some []
  | [w, x, '=', '='] => do
    let w ← digitValue? w
    let x ← digitValue? x
    if x % 16 = 0 then some [.ofNat (w * 4 + x / 16)] else none
  | [w, x, y, '='] => do
    let w ← digitValue? w
    let x ← digitValue? x
    let y ← digitValue? y
    if y % 4 = 0 then some [.ofNat (w * 4 + x / 16), .ofNat (x % 16 * 16 + y / 4)] else none
  | w :: x :: y :: z :: rest => do
    let w ← digitValue? w
    let x ← digitValue? x
    let y ← digitValue? y
    let z ← digitValue? z
    let rest ← decode? rest
    some (.ofNat (w * 4 + x / 16) :: .ofNat (x % 16 * 16 + y / 4) :: .ofNat (y % 4 * 64 + z) :: rest)
  | _ => none

/-- The base64 text of the UTF-8 bytes of a text. -/
def encodeText (text : String) : String :=
  String.ofList (encode text.toUTF8.toList)

/-- The text whose UTF-8 bytes are given in base64. -/
def decodeText? (encoded : String) : Option String := do
  let bytes ← decode? encoded.toList
  String.fromUTF8? ⟨bytes.toArray⟩

end Multipass.Text.Base64
