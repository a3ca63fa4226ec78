import Multipass.Text.Blank
import Multipass.Text.Lexeme
import Multipass.Text.Search

/-!
# The body of a called macro

Each name in the body that is a parameter gives way to its argument. After that,
`##` joins what stands on its two sides: the operator goes, with the spaces and
tabs around it.
-/

namespace Multipass.Macro

/-- The argument for a name, the first parameter of that name deciding. -/
def argumentFor? (parameters arguments : List (List Char)) (name : List Char) :
    Option (List Char) :=
  (parameters.zip arguments).lookup name

/-- What follows a `##` at the beginning of a text, with the spaces and tabs around the
    operator left out. -/
def afterJoin? (text : List Char) : Option (List Char) :=
  match text.dropWhile Text.isSpaceOrTab with
  | '#' :: '#' :: after => some (after.dropWhile Text.isSpaceOrTab)
  | _ => none

theorem afterJoin?_shorter {text after : List Char} (found : afterJoin? text = some after) :
    after.length < text.length := by
  unfold afterJoin? at found
  split at found
  · rename_i later joined
    have spaced := (List.dropWhile_sublist Text.isSpaceOrTab (l := text)).length_le
    rw [joined] at spaced
    rw [← Option.some.inj found]
    exact Nat.lt_of_le_of_lt (List.dropWhile_sublist _).length_le
      (Nat.lt_of_succ_lt (Nat.lt_of_succ_le spaced))
  · cases found

/-- Remove every `##` and the spaces and tabs around it. -/
def paste (text : List Char) : List Char :=
  match text with
  | [] => []
  | c :: rest =>
    match found : afterJoin? (c :: rest) with
    | some after =>
      have : after.length < (c :: rest).length := afterJoin?_shorter found
      paste after
    | none => c :: paste rest
  termination_by text.length
  decreasing_by
    · exact this
    · exact Nat.lt_succ_self _

/-- The body with arguments in place of parameters, and with its parts joined. -/
def substitute (parameters arguments : List (List Char)) (body : List Char) : List Char :=
  paste <| (Text.lexemes body).flatMap fun
    | .name text => (argumentFor? parameters arguments text).getD text
    | lexeme => lexeme.text

end Multipass.Macro
