import Multipass.Comment
import Multipass.Preprocess.Problem
import Multipass.Text.Lines
import Multipass.Text.Word

/-!
# Directives

A directive is a line whose first character that is not blank is `#`, joined with
the lines after it as long as it ends in a backslash. Its keyword decides who owns
it: macros, conditional groups and `#error` are handled here, every other keyword
is left to the compiler.
-/

namespace Multipass.Preprocess

/-- A directive by its keyword, with the text after it, comments removed. -/
inductive Directive where
  | nothing
  | define (rest : List Char)
  | undefine (rest : List Char)
  | openNamed (opener : Opener) (wanted : Bool) (rest : List Char)
  | openCondition (rest : List Char)
  | orCondition (rest : List Char)
  | otherwise
  | close
  | announce (rest : List Char)
  | foreign
  deriving DecidableEq, Repr

namespace Directive

/-- Is the first visible character of the line a `#`? -/
def isDirectiveLine (line : List Char) : Bool :=
  (Text.trimStart line).head? = some '#'

/-- A directive together with the lines it continues on: its joined text, those
    lines, and the lines after them. -/
def joinContinuations (text : List Char) :
    List (List Char) → List Char × List (List Char) × List (List Char)
  | [] => (text, [], [])
  | next :: rest =>
    if text.getLast? = some '\\' then
      let (joined, taken, remaining) :=
        joinContinuations (text.dropLast ++ ' ' :: Text.trim next) rest
      (joined, next :: taken, remaining)
    else (text, [], next :: rest)

theorem joinContinuations_append (text : List Char) (following : List (List Char)) :
    (joinContinuations text following).2.1 ++ (joinContinuations text following).2.2 =
      following := by
  induction following generalizing text with
  | nil => rfl
  | cons next rest ih =>
    unfold joinContinuations
    split
    · simpa using ih _
    · rfl

theorem remaining_length_le (text : List Char) (following : List (List Char)) :
    (joinContinuations text following).2.2.length ≤ following.length := by
  conv => rhs; rw [← joinContinuations_append text following]
  simp

/-- Read the joined text of a directive. -/
def ofText (text : List Char) : Directive :=
  let body := Text.trimStart (text.dropWhile (· == '#'))
  let keyword := String.ofList (body.takeWhile Char.isAlpha)
  let rest := Text.trim (Comment.strip (body.dropWhile Char.isAlpha))
  match keyword with
  | "" => .nothing
  | "define" => .define rest
  | "undef" => .undefine rest
  | "ifdef" => .openNamed .ifDefined true rest
  | "ifndef" => .openNamed .ifNotDefined false rest
  | "if" => .openCondition rest
  | "elif" => .orCondition rest
  | "else" => .otherwise
  | "endif" => .close
  | "error" => .announce rest
  | _ => .foreign

end Directive

/-- The parameters between the parentheses of a definition. -/
def parseParameters (name list : List Char) : Except Problem (List (List Char)) :=
  if Text.isAllBlank list then .ok []
  else (Text.pieces ',' (Text.trim list)).mapM fun piece =>
    let parameter := Text.trim piece
    if Text.isName parameter then .ok parameter
    else .error (.invalidParameter parameter name)

/-- The macro that a `#define` defines. A parameter list begins right after the
    name; with a blank in between, the parenthesis belongs to the body. -/
def parseDefinition (rest : List Char) (line : Nat) :
    Except Problem (List Char × Macro.Definition) :=
  match Text.leadingName? rest with
  | none => .error .defineWithoutName
  | some (name, '(' :: afterOpening) =>
    match Text.breakAt? [')'] afterOpening with
    | none => .error (.unterminatedParameters name)
    | some (list, body) => do
      let parameters ← parseParameters name list
      return (name, ⟨some parameters, Text.trim body, line⟩)
  | some (name, body) => .ok (name, ⟨none, Text.trim body, line⟩)

/-- `defined(NAME)` or `defined NAME` at the beginning of a text: the name, whether
    it ends the match, and the text after it. -/
def definedTest? (text : List Char) : Option (List Char × Bool × List Char) :=
  match Text.after? "defined".toList text with
  | none => none
  | some rest =>
    match Text.trimStart rest with
    | '(' :: inner =>
      match Text.leadingWord? (Text.trimStart inner) with
      | none => none
      | some (name, afterName) =>
        match Text.trimStart afterName with
        | ')' :: after => some (name, false, after)
        | _ => none
    | next =>
      if rest.head?.any Text.isBlank then
        (Text.leadingWord? next).map fun (name, after) => (name, true, after)
      else none

theorem definedTest?_shorter {text name after : List Char} {ends : Bool}
    (found : definedTest? text = some (name, ends, after)) : after.length < text.length := by
  unfold definedTest? at found
  split at found
  · simp at found
  · rename_i rest keyword
    have size : text.length = 7 + rest.length := by
      rw [Text.after?_eq_some_iff.mp keyword]; simp; omega
    have trimmed := Text.trimStart_length_le rest
    split at found
    · rename_i inner opened
      rw [opened, List.length_cons] at trimmed
      split at found
      · simp at found
      · rename_i afterName named
        have step := Text.leadingWord?_length_le named
        have innerTrimmed := Text.trimStart_length_le inner
        have nameTrimmed := Text.trimStart_length_le afterName
        split at found
        · rename_i last closed
          simp only [Option.some.injEq, Prod.mk.injEq] at found
          rw [closed, List.length_cons] at nameTrimmed
          rw [← found.2.2]; omega
        · simp at found
    · split at found
      · obtain ⟨parts, named, same⟩ := Option.map_eq_some_iff.mp found
        have step := @Text.leadingWord?_length_le _ parts.1 parts.2 named
        simp only [Prod.mk.injEq] at same
        rw [← same.2.2]; omega
      · simp at found

/-- Replace each `defined` test that starts a word by one or zero. -/
def resolveDefined (table : Macro.Table) (insideWord : Bool) (text : List Char) : List Char :=
  match text with
  | [] => []
  | c :: rest =>
    match insideWord, found : definedTest? (c :: rest) with
    | false, some (name, ends, after) =>
      have : after.length ≤ rest.length := Nat.le_of_lt_succ (definedTest?_shorter found)
      (if table.contains name then '1' else '0') :: resolveDefined table ends after
    | _, _ => c :: resolveDefined table (Text.isWordChar c) rest
  termination_by text.length

end Multipass.Preprocess
