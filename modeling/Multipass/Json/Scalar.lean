import Multipass.Json.Skip

/-!
# Readers of single values

Each reader expects one kind of value. A value of another kind is a fault that names
both what was found and what was expected.
-/

namespace Multipass.Json

namespace Reader

variable {α : Type}

/-- Pass over blanks and decide by the next character. -/
def peek (next : Option Char → Reader α) : Reader α where
  run text := (next (skipBlanks text).head?).run (skipBlanks text)
  bound := fun read => Nat.le_trans ((next _).bound read) (skipBlanks_length_le _)

/-- Take one character off. -/
def advance : Reader Unit where
  run text := .ok ((), text.drop 1)
  bound := by
    intro text rest value same
    simp only [Except.ok.injEq, Prod.mk.injEq, true_and] at same
    rw [← same, List.length_drop]
    exact Nat.sub_le _ _

/-- Read the rest of a text whose quote was read. -/
def textRest : Reader (List Char) :=
  ⟨textTail, textTail_length_le⟩

/-- Read the letters of a word. -/
def word (letters : String) : Reader Unit :=
  ⟨Json.word letters.toList, word_length_le⟩

/-- Read a number. -/
def number : Reader Number :=
  ⟨Json.number, fun read => Nat.le_of_lt (number_shorter read)⟩

/-- Read the colon between a key and its value. -/
def colon : Reader Unit :=
  ⟨Json.colon, colon_length_le⟩

end Reader

/-- The kind of the value that a text begins with. A list or an object is not read. -/
def kind : Reader Kind :=
  .peek fun
    | some 'n' => do .advance; .word "ull"; return .null
    | some 't' => do .advance; .word "rue"; return .boolean true
    | some 'f' => do .advance; .word "alse"; return .boolean false
    | some '"' => do .advance; return .text (← .textRest)
    | some '[' => return .sequence
    | some '{' => return .map
    | some c =>
      if c = '-' || c.isDigit then do
        match ← Reader.number with
        | .integer value => return .integer value
        | .decimal value => return .decimal value.toBits.toNat
      else .malformed .expectedValue
    | none => .malformed .expectedValue

/-- A value that is not of the expected kind. -/
def mismatch {α : Type} (expected : String) : Reader α := do
  let found ← kind
  .fail (.misshapen (.wrongType found expected)) .here

/-- A text, called by the given name when something else is found. -/
def textAs (expected : String) : Reader (List Char) :=
  .peek fun
    | none => .malformed .endInValue
    | some '"' => do .advance; .textRest
    | some _ => mismatch expected

/-- Read a text. -/
def text : Reader String :=
  String.ofList <$> textAs "a string"

/-- Read a truth value. -/
def boolean : Reader Bool :=
  .peek fun
    | none => .malformed .endInValue
    | some 't' => do .advance; .word "rue"; return true
    | some 'f' => do .advance; .word "alse"; return false
    | some _ => mismatch "a boolean"

/-- Read a `null`. -/
def null : Reader Unit :=
  .peek fun
    | none => .malformed .endInValue
    | some 'n' => do .advance; .word "ull"
    | some _ => mismatch "unit"

/-- A number, called by the given name when something else is found. -/
def numberAs (expected : String) : Reader Number :=
  .peek fun
    | none => .malformed .endInValue
    | some c => if c = '-' || c.isDigit then .number else mismatch expected

/-- A natural number of so many bits. -/
def natural (bits : Nat) : Reader Nat := do
  let expected := s!"u{bits}"
  match ← numberAs expected with
  | .integer value =>
    if 0 ≤ value ∧ value < Nat.pow 2 bits then return value.toNat
    else .fail (.misshapen (.wrongValue value expected)) .here
  | .decimal value =>
    .fail (.misshapen (.wrongType (.decimal value.toBits.toNat) expected)) .here

/-- A number in single precision. An integer is rounded once, other numbers once more
    after having been doubles. -/
def single : Reader Float32 := do
  match ← numberAs "f32" with
  | .integer value =>
    let magnitude := value.natAbs.toUInt64.toFloat32
    return if value < 0 then -magnitude else magnitude
  | .decimal value => return value.toFloat32

/-- A value that may be null instead. -/
def optional {α : Type} (reader : Reader α) : Reader (Option α) :=
  .peek fun
    | some 'n' => do .advance; .word "ull"; return none
    | _ => some <$> reader

/-- One of a few names, which stands in front. -/
def variantName {α : Type} (variants : List (String × α)) (expected : String) : Reader α := do
  .advance
  let name ← .textRest
  match variants.lookup (String.ofList name) with
  | some value => return value
  | none => .fail (.misshapen (.unknownVariant name expected)) .here

/-- One of a few names, which may stand as the key of an object that holds null. -/
def variant {α : Type} (variants : List (String × α)) (expected : String) : Reader α :=
  .peek fun
    | none => .malformed .endInValue
    | some '"' => variantName variants expected
    | some '{' => do
      .advance
      .peek fun
        | none => .malformed .endInObject
        | some '"' => do
          let value ← variantName variants expected
          .colon
          null
          .peek fun
            | some '}' => do .advance; return value
            | some _ => .fail (.malformed .expectedValue) .here
            | none => .fail (.malformed .endInObject) .here
        | some '}' => .malformed .expectedValue
        | some _ => .malformed .keyNotText
    | some _ => .malformed .expectedValue

end Multipass.Json
