import Multipass.Comment
import Multipass.Diagnostic
import Multipass.Text.Word

/-!
# The entry point of a pass

Every pass defines `void mainImage(out vec4, [in] vec2)`. The check runs on the
expanded text with its comments blanked out: at least one declaration of the name
is more than a prototype, and every declaration has the right signature.
-/

namespace Multipass.EntryPoint

/-- The name of the entry point. -/
def name : List Char := "mainImage".toList

/-- The signature that is quoted to the user. -/
def signature : String := "void mainImage(out vec4 fragColor, in vec2 fragCoord)"

/-- What is wrong with a text that has no proper entry point. -/
inductive Problem where
  | emptySource
  | missing
  | wrongSignature
  deriving DecidableEq, Repr

/-- What the user is told about an entry point. -/
def Problem.message : Problem → String
  | .emptySource => "Shader source is empty"
  | .missing => s!"Missing entry point 'mainImage'.\n\nRequired:\n{signature}"
  | .wrongSignature => s!"Incorrect signature for 'mainImage'.\n\nExpected:\n{signature}"

/-- What follows the parameter list of a declaration. -/
inductive Kind where
  | definition
  | prototype
  | other
  deriving DecidableEq, Repr

/-- A declaration of the entry point: the line of its name, the text from its type
    on, and its kind. -/
structure Declaration where
  line : Nat
  text : List Char
  kind : Kind
  deriving DecidableEq, Repr

/-- Words that stand in front of a call and are not types. -/
def expressionKeywords : List (List Char) :=
  ["return".toList, "else".toList, "case".toList, "do".toList]

/-- The text after the parenthesis that closes a list, inside `depth` more
    parentheses. -/
def afterClosing? (depth : Nat) : List Char → Option (List Char)
  | [] => none
  | '(' :: rest => afterClosing? (depth + 1) rest
  | ')' :: rest =>
    match depth with
    | 0 => some rest
    | outer + 1 => afterClosing? outer rest
  | _ :: rest => afterClosing? depth rest

/-- The kind of the declaration whose parameter list begins here. -/
def kindAt (parameters : List Char) : Kind :=
  match afterClosing? 0 parameters with
  | none => .other
  | some rest =>
    match Text.trimStart rest with
    | '{' :: _ => .definition
    | ';' :: _ => .prototype
    | _ => .other

/-- `<type> mainImage (` at the beginning of a text: the type, and the text after
    the parenthesis. -/
def heading? (text : List Char) : Option (List Char × List Char) := do
  let (type, rest) ← Text.leadingWord? text
  let rest ← Text.afterBlanks? rest
  let rest ← Text.after? name rest
  let rest ← Text.after? ['('] (Text.trimStart rest)
  return (type, rest)

theorem heading?_shorter {text type rest : List Char} (found : heading? text = some (type, rest)) :
    rest.length < text.length := by
  simp only [heading?, Option.bind_eq_bind, Option.bind_eq_some_iff, Option.pure_def,
    Option.some.injEq, Prod.mk.injEq, Prod.exists] at found
  obtain ⟨word, r₁, h₁, r₂, h₂, r₃, h₃, r₄, h₄, _, rfl⟩ := found
  have b₁ := Text.leadingWord?_length_le h₁
  have b₂ := Text.afterBlanks?_length_le h₂
  have b₃ : r₂.length = name.length + r₃.length := by
    rw [Text.after?_eq_some_iff.mp h₃, List.length_append]
  have trimmed := Text.trimStart_length_le r₃
  have b₄ : (Text.trimStart r₃).length = 1 + r₄.length := by
    rw [Text.after?_eq_some_iff.mp h₄, List.length_append]; simp
  omega

/-- The number of line feeds before the first occurrence of the entry point's name. -/
def linesBeforeName (text : List Char) : Nat :=
  match Text.breakAt? name text with
  | some (front, _) => front.count '\n'
  | none => 0

/-- The declarations of a text without comments, whose first line has the given
    number. The text may begin inside a word. -/
def declarationsFrom (line : Nat) (insideWord : Bool) (text : List Char) : List Declaration :=
  match text with
  | [] => []
  | c :: rest =>
    match insideWord, found : heading? (c :: rest) with
    | false, some (type, parameters) =>
      have : parameters.length ≤ rest.length := Nat.le_of_lt_succ (heading?_shorter found)
      let consumed := (c :: rest).take ((c :: rest).length - parameters.length)
      let later := declarationsFrom (line + consumed.count '\n') false parameters
      if expressionKeywords.contains type then later
      else ⟨line + linesBeforeName (c :: rest), c :: rest, kindAt parameters⟩ :: later
    | _, _ =>
      declarationsFrom (if c = '\n' then line + 1 else line) (Text.isWordChar c) rest
  termination_by text.length

/-- Every declaration of the entry point in a text without comments. -/
def declarations (code : List Char) : List Declaration :=
  declarationsFrom 1 false code

/-- A parameter's name, with blanks in front of it and after it. -/
def afterParameterName? (text : List Char) : Option (List Char) := do
  let rest ← Text.afterBlanks? text
  let (_, rest) ← Text.leadingWord? rest
  return Text.trimStart rest

/-- Does the text begin with a declaration of the required signature? -/
def hasSignature (text : List Char) : Bool :=
  Option.isSome do
    let rest ← Text.after? "void".toList text
    let rest ← Text.afterBlanks? rest
    let rest ← Text.after? name rest
    let rest ← Text.after? ['('] (Text.trimStart rest)
    let rest ← Text.after? "out".toList (Text.trimStart rest)
    let rest ← Text.afterBlanks? rest
    let rest ← Text.after? "vec4".toList rest
    let rest ← afterParameterName? rest
    let rest ← Text.after? [','] rest
    let rest := Text.trimStart rest
    let rest := ((Text.after? "in".toList rest).bind Text.afterBlanks?).getD rest
    let rest ← Text.after? "vec2".toList rest
    let rest ← afterParameterName? rest
    Text.after? [')'] rest

/-- The problem of an expanded text, with the line it is on. -/
def problem? (expanded : List Char) : Option (Located Problem) :=
  if Text.isAllBlank expanded then some ⟨0, .emptySource⟩
  else
    let found := declarations (Comment.blank expanded)
    if found.all (·.kind == .prototype) then some ⟨0, .missing⟩
    else (found.find? (!hasSignature ·.text)).map fun bad => ⟨bad.line, .wrongSignature⟩

end EntryPoint

/-- Check the entry point of the expanded code of a pass. -/
def validateEntryPoint (expanded : String) (pass : PassName) : Except PassFailure Unit :=
  match EntryPoint.problem? expanded.toList with
  | none => .ok ()
  | some problem => .error (.single pass problem.line problem.content.message)

end Multipass
