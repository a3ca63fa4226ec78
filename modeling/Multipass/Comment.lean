import Multipass.Text.Search

/-!
# Comments

A line comment runs from `//` to the end of the line, a block comment from `/*`
to the next `*/`. Which of the two opens first decides what the other means.
`segments` cuts one line into code and comments, given whether the line begins
inside a block comment; `strip` removes the comments of a directive; `blank`
overwrites the comments of a whole text with spaces.
-/

namespace Multipass.Comment

/-- The two kinds of comments, by what opens them. -/
inductive Opening where
  | line
  | block
  deriving DecidableEq, Repr

/-- The code before the first comment, and the comment's kind and text if there
    is one. -/
def splitAtOpening : List Char → List Char × Option (Opening × List Char)
  | '/' :: '/' :: rest => ([], some (.line, rest))
  | '/' :: '*' :: rest => ([], some (.block, rest))
  | c :: rest =>
    let (front, found) := splitAtOpening rest
    (c :: front, found)
  | [] => ([], none)

/-- The text of a block comment, and what stands behind the `*` and `/` that close it. -/
def splitAtClosing? (text : List Char) : Option (List Char × List Char) :=
  Text.breakAt? ['*', '/'] text

theorem splitAtOpening_shorter {text front rest : List Char} {opening : Opening}
    (found : splitAtOpening text = (front, some (opening, rest))) :
    rest.length < text.length := by
  fun_induction splitAtOpening text generalizing front with
  | case1 | case2 =>
    simp only [Prod.mk.injEq, Option.some.injEq] at found
    rw [← found.2.2, List.length_cons, List.length_cons]
    omega
  | case3 c text _ _ front' later h ih =>
    simp only [Prod.mk.injEq] at found
    have := @ih front' (by rw [h, found.2])
    simp; omega
  | case4 => simp at found

theorem splitAtClosing?_shorter {text front rest : List Char}
    (found : splitAtClosing? text = some (front, rest)) : rest.length < text.length := by
  rw [Text.eq_append_of_breakAt? found]
  simp; omega

/-- A part of a line. -/
inductive Segment where
  | code (text : List Char)
  | comment (text : List Char)
  deriving DecidableEq, Repr

/-- The segments of a line, and whether the next line begins inside a block
    comment. -/
def segments (inside : Bool) (line : List Char) : List Segment × Bool :=
  if inside then
    match found : splitAtClosing? line with
    | none => ([.comment line], true)
    | some (body, rest) =>
      have : rest.length < line.length := splitAtClosing?_shorter found
      let (later, state) := segments false rest
      (.comment (body ++ ['*', '/']) :: later, state)
  else
    match found : splitAtOpening line with
    | (code, none) => ([.code code], false)
    | (code, some (.line, body)) => ([.code code, .comment ('/' :: '/' :: body)], false)
    | (code, some (.block, rest)) =>
      have : rest.length < line.length := splitAtOpening_shorter found
      let (later, state) := segments true rest
      (.code code :: .comment ['/', '*'] :: later, state)
  termination_by line.length

/-- Does the line after this one begin inside a block comment? -/
def insideAfter (inside : Bool) (line : List Char) : Bool :=
  if inside then
    match found : splitAtClosing? line with
    | none => true
    | some (_, rest) =>
      have : rest.length < line.length := splitAtClosing?_shorter found
      insideAfter false rest
  else
    match found : splitAtOpening line with
    | (_, none) => false
    | (_, some (.line, _)) => false
    | (_, some (.block, rest)) =>
      have : rest.length < line.length := splitAtOpening_shorter found
      insideAfter true rest
  termination_by line.length

/-- The text of a directive without its comments. A block comment counts as a
    space, and one that is not closed hides the rest. -/
def strip (text : List Char) : List Char :=
  match found : splitAtOpening text with
  | (code, none) => code
  | (code, some (.line, _)) => code
  | (code, some (.block, body)) =>
    match closing : splitAtClosing? body with
    | none => code ++ [' ']
    | some (_, rest) =>
      have : rest.length < text.length :=
        Nat.lt_trans (splitAtClosing?_shorter closing) (splitAtOpening_shorter found)
      code ++ ' ' :: strip rest
  termination_by text.length

/-- Where a reader of a whole text stands. -/
inductive Place where
  | code
  | line
  | block
  deriving DecidableEq, Repr

/-- The text with every character of a comment, line feeds excepted, replaced by
    a space. -/
def blankFrom : Place → List Char → List Char
  | _, [] => []
  | .line, c :: rest =>
    if c = '\n' then '\n' :: blankFrom .code rest else ' ' :: blankFrom .line rest
  | .block, '*' :: '/' :: rest => ' ' :: ' ' :: blankFrom .code rest
  | .block, c :: rest => (if c = '\n' then '\n' else ' ') :: blankFrom .block rest
  | .code, '/' :: '/' :: rest => ' ' :: ' ' :: blankFrom .line rest
  | .code, '/' :: '*' :: rest => ' ' :: ' ' :: blankFrom .block rest
  | .code, c :: rest => c :: blankFrom .code rest

/-- The text with blanks in the place of its comments. -/
def blank (text : List Char) : List Char :=
  blankFrom .code text

end Multipass.Comment
