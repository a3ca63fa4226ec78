import Multipass.Proofs.Preprocess.Directive
import Multipass.Proofs.Preprocess.Run
import Multipass.Proofs.Text.Blank

/-!
# Programs as trees

A program of code lines, definitions and conditional groups, nested to any depth, and
the lines in which it is written. Every directive stands on one line, with any blanks
around its `#` and any text after its keyword; code has no comments.
-/

namespace Multipass.Preprocess

/-- How a directive is written: the blanks before and after its `#`, and the text after
    its keyword. -/
structure Wording where
  indent : List Char
  gap : List Char
  rest : List Char
  indentBlank : ∀ c ∈ indent, Text.isBlank c = true
  gapBlank : ∀ c ∈ gap, Text.isBlank c = true
  apart : rest.head?.any Char.isAlpha = false
  ends : (Text.trimEnd rest).getLast? ≠ some '\\'
  oneLine : '\n' ∉ indent ++ gap ++ rest

/-- A line of code. -/
structure CodeLine where
  text : List Char
  notDirective : Directive.isDirectiveLine text = false
  noLineComment : ¬ ['/', '/'] <:+: text
  noBlockComment : ¬ ['/', '*'] <:+: text
  oneLine : '\n' ∉ text

/-- The directive that opens a group. -/
structure Opening where
  opener : Opener
  wording : Wording

mutual

/-- Lines one after the other, with groups among them. -/
inductive Block where
  | done
  | code (line : CodeLine) (rest : Block)
  | define (wording : Wording) (rest : Block)
  | undefine (wording : Wording) (rest : Block)
  | group (opening : Opening) (body : Block) (branches : Branches) (rest : Block)

/-- What follows the first branch of a group. -/
inductive Branches where
  | close (wording : Wording)
  | otherwise (wording : Wording) (body : Block) (closing : Wording)
  | orElse (wording : Wording) (body : Block) (rest : Branches)

end

namespace Wording

/-- The line of a directive. -/
def line (wording : Wording) (keyword : String) : List Char :=
  wording.indent ++ '#' :: (wording.gap ++ (keyword.toList ++ wording.rest))

/-- The text after the keyword, without comments and without blanks at its ends. -/
def argument (wording : Wording) : List Char :=
  Text.trim (Comment.strip (Text.trimEnd wording.rest))

end Wording

/-- The keyword that opens a group. -/
def Opener.keyword : Opener → String
  | .ifDefined => "ifdef"
  | .ifNotDefined => "ifndef"
  | .ifCondition => "if"

/-- The line that opens a group. -/
def Opening.line (opening : Opening) : List Char :=
  opening.wording.line opening.opener.keyword

mutual

/-- The lines of a block. -/
def Block.lines : Block → List (List Char)
  | .done => []
  | .code line rest => line.text :: rest.lines
  | .define wording rest => wording.line "define" :: rest.lines
  | .undefine wording rest => wording.line "undef" :: rest.lines
  | .group opening body branches rest =>
    opening.line :: (body.lines ++ (branches.lines ++ rest.lines))

/-- The lines of what follows a group's first branch, with the `#endif`. -/
def Branches.lines : Branches → List (List Char)
  | .close wording => [wording.line "endif"]
  | .otherwise wording body closing =>
    wording.line "else" :: (body.lines ++ [closing.line "endif"])
  | .orElse wording body rest => wording.line "elif" :: (body.lines ++ rest.lines)

end

namespace Wording

variable (wording : Wording) {keyword : String}

/-- A keyword is made of letters. -/
def IsKeyword (keyword : String) : Prop :=
  keyword.toList ≠ [] ∧ keyword.toList.all Char.isAlpha = true

instance (keyword : String) : Decidable (IsKeyword keyword) :=
  inferInstanceAs (Decidable (_ ∧ _))

theorem IsKeyword.isAlpha (letters : IsKeyword keyword) :
    ∀ c ∈ keyword.toList, c.isAlpha = true :=
  List.all_eq_true.mp letters.2

theorem trimStart_line (keyword : String) :
    Text.trimStart (wording.line keyword) =
      '#' :: (wording.gap ++ (keyword.toList ++ wording.rest)) := by
  rw [line, Text.trimStart, List.dropWhile_append_of_pos wording.indentBlank]
  exact List.dropWhile_cons_of_neg (by decide)

theorem isDirectiveLine_line (keyword : String) :
    Directive.isDirectiveLine (wording.line keyword) = true := by
  rw [Directive.isDirectiveLine, trimStart_line, List.head?_cons]
  rfl

theorem trim_line (letters : IsKeyword keyword) :
    Text.trim (wording.line keyword) =
      '#' :: (wording.gap ++ (keyword.toList ++ Text.trimEnd wording.rest)) := by
  obtain ⟨front, last, split⟩ := (List.eq_nil_or_concat' keyword.toList).resolve_left letters.1
  have letter : last.isAlpha = true := letters.isAlpha last (by rw [split]; simp)
  have grouped : '#' :: (wording.gap ++ (keyword.toList ++ wording.rest)) =
      ('#' :: (wording.gap ++ front) ++ [last]) ++ wording.rest := by
    rw [split]
    simp
  rw [Text.trim, trimStart_line, grouped, Text.trimEnd, Text.dropTrailing_append,
    Text.dropTrailing_concat (Text.isBlank_of_isAlpha letter)]
  by_cases empty : Text.dropTrailing Text.isBlank wording.rest = []
  · rw [if_pos empty, Text.trimEnd, empty, split]
    simp
  · rw [if_neg empty, Text.trimEnd, split]
    simp

/-- The line of a directive does not go on. -/
theorem last_trim_line (letters : IsKeyword keyword) :
    (Text.trim (wording.line keyword)).getLast? ≠ some '\\' := by
  obtain ⟨front, last, split⟩ := (List.eq_nil_or_concat' keyword.toList).resolve_left letters.1
  have letter : last.isAlpha = true := letters.isAlpha last (by rw [split]; simp)
  rw [trim_line wording letters, ← List.append_assoc, ← List.cons_append, List.getLast?_append]
  cases trimmed : (Text.trimEnd wording.rest).getLast? with
  | none =>
    rw [Option.none_or, split, ← List.append_assoc, ← List.cons_append, List.getLast?_concat]
    intro same
    rw [Option.some.inj same] at letter
    exact absurd letter (by decide)
  | some c =>
    rw [Option.some_or, ← trimmed]
    exact wording.ends

theorem body_line (letters : IsKeyword keyword) :
    Directive.body (Text.trim (wording.line keyword)) =
      keyword.toList ++ Text.trimEnd wording.rest := by
  obtain ⟨first, others, split⟩ := List.exists_cons_of_ne_nil letters.1
  have letter : first.isAlpha = true := letters.isAlpha first (by rw [split]; simp)
  have oneHash : (wording.gap ++ (keyword.toList ++ Text.trimEnd wording.rest)).dropWhile
      (· == '#') = wording.gap ++ (keyword.toList ++ Text.trimEnd wording.rest) := by
    cases gap : wording.gap with
    | nil =>
      rw [split]
      refine List.dropWhile_cons_of_neg ?_
      rintro same
      rw [beq_iff_eq.mp same] at letter
      exact absurd letter (by decide)
    | cons blank more =>
      have isBlank := wording.gapBlank blank (by rw [gap]; exact List.mem_cons_self)
      refine List.dropWhile_cons_of_neg ?_
      intro same
      rw [beq_iff_eq.mp same] at isBlank
      exact absurd isBlank (by decide)
  rw [trim_line wording letters, Directive.body, List.dropWhile_cons_of_pos (by decide), oneHash,
    Text.trimStart, List.dropWhile_append_of_pos wording.gapBlank, split]
  refine List.dropWhile_cons_of_neg ?_
  rw [Text.isBlank_of_isAlpha letter]
  exact Bool.false_ne_true

/-- A directive is read as it was written. -/
theorem ofText_line (letters : IsKeyword keyword) :
    Directive.ofText (Text.trim (wording.line keyword)) =
      Directive.ofKeyword keyword wording.argument := by
  have apart : ∀ c, (Text.trimEnd wording.rest).head? = some c → c.isAlpha = false := by
    intro c begins
    have original := wording.apart
    rw [Text.head?_dropTrailing begins] at original
    exact original
  have none : (Text.trimEnd wording.rest).takeWhile Char.isAlpha = [] ∧
      (Text.trimEnd wording.rest).dropWhile Char.isAlpha = Text.trimEnd wording.rest := by
    cases rest : Text.trimEnd wording.rest with
    | nil => exact ⟨rfl, rfl⟩
    | cons c more =>
      have notLetter := apart c (by rw [rest, List.head?_cons])
      exact ⟨List.takeWhile_cons_of_neg (by simp [notLetter]),
        List.dropWhile_cons_of_neg (by simp [notLetter])⟩
  rw [Directive.ofText_eq, Directive.keyword, Directive.argument, body_line wording letters,
    List.takeWhile_append_of_pos letters.isAlpha, List.dropWhile_append_of_pos letters.isAlpha, none.1, none.2,
    List.append_nil, String.ofList_toList]
  rfl

/-- The line of a directive that is not the compiler's is one step of a run. -/
theorem run_line (letters : IsKeyword keyword)
    (handled : Directive.ofKeyword keyword wording.argument ≠ .foreign) {state : State}
    (outside : state.insideComment = false) (number : Nat) (rest : List (List Char)) :
    run state number (wording.line keyword :: rest) =
      run (state.directive number (Directive.ofKeyword keyword wording.argument))
        (number + 1) rest := by
  have marked : (!state.insideComment && Directive.isDirectiveLine (wording.line keyword)) =
      true := by
    rw [outside, isDirectiveLine_line]
    rfl
  have joins : Directive.joinContinuations (Text.trim (wording.line keyword)) rest =
      (Text.trim (wording.line keyword), [], rest) := by
    cases rest with
    | nil => rfl
    | cons next more => exact if_neg (last_trim_line wording letters)
  rw [run_directive marked joins, ofText_line wording letters,
    if_neg (by rw [decide_eq_false handled]; exact Bool.false_ne_true)]
  rfl

theorem line_oneLine (letters : IsKeyword keyword) : '\n' ∉ wording.line keyword := by
  have own := wording.oneLine
  simp only [List.mem_append, not_or] at own
  have notLetter : '\n' ∉ keyword.toList := fun member =>
    absurd (letters.isAlpha _ member) (by decide)
  simp only [line, List.mem_append, List.mem_cons, not_or]
  exact ⟨own.1.1, by decide, own.1.2, notLetter, own.2⟩

end Wording

theorem splitAtOpening_of_noComment {text : List Char} (noLine : ¬ ['/', '/'] <:+: text)
    (noBlock : ¬ ['/', '*'] <:+: text) : Comment.splitAtOpening text = (text, none) := by
  fun_induction Comment.splitAtOpening text with
  | case1 rest => exact absurd (List.prefix_append ['/', '/'] rest).isInfix noLine
  | case2 rest => exact absurd (List.prefix_append ['/', '*'] rest).isInfix noBlock
  | case3 c rest _ _ front found split ih =>
    have here := ih (fun inside => noLine (List.infix_cons inside))
      (fun inside => noBlock (List.infix_cons inside))
    rw [split] at here
    rw [(Prod.mk.inj here).1, (Prod.mk.inj here).2]
  | case4 => rfl

namespace CodeLine

theorem splitAtOpening_text (line : CodeLine) :
    Comment.splitAtOpening line.text = (line.text, none) :=
  splitAtOpening_of_noComment line.noLineComment line.noBlockComment

theorem insideAfter_text (line : CodeLine) : Comment.insideAfter false line.text = false := by
  rw [Comment.insideAfter, if_neg Bool.false_ne_true]
  split
  · rfl
  · rfl
  · rename_i split
    rw [line.splitAtOpening_text] at split
    simp at split

theorem segments_text (line : CodeLine) :
    Comment.segments false line.text = ([.code line.text], false) := by
  rw [Comment.segments, if_neg Bool.false_ne_true]
  split
  · rename_i split
    rw [line.splitAtOpening_text] at split
    rw [(Prod.mk.inj split).1]
  · rename_i split
    rw [line.splitAtOpening_text] at split
    simp at split
  · rename_i split
    rw [line.splitAtOpening_text] at split
    simp at split

end CodeLine

theorem Opener.isKeyword (opener : Opener) : Wording.IsKeyword opener.keyword := by
  cases opener with
  | ifDefined => decide
  | ifNotDefined => decide
  | ifCondition => decide

mutual

theorem Block.lines_oneLine (block : Block) : ∀ line ∈ block.lines, '\n' ∉ line := by
  cases block with
  | done => simp [Block.lines]
  | code line rest =>
    simp only [Block.lines, List.forall_mem_cons]
    exact ⟨line.oneLine, rest.lines_oneLine⟩
  | define wording rest =>
    simp only [Block.lines, List.forall_mem_cons]
    exact ⟨wording.line_oneLine (by decide), rest.lines_oneLine⟩
  | undefine wording rest =>
    simp only [Block.lines, List.forall_mem_cons]
    exact ⟨wording.line_oneLine (by decide), rest.lines_oneLine⟩
  | group opening body branches rest =>
    simp only [Block.lines, List.forall_mem_cons, List.forall_mem_append]
    exact ⟨opening.wording.line_oneLine opening.opener.isKeyword, body.lines_oneLine,
      branches.lines_oneLine, rest.lines_oneLine⟩

theorem Branches.lines_oneLine (branches : Branches) : ∀ line ∈ branches.lines, '\n' ∉ line := by
  cases branches with
  | close wording =>
    simp only [Branches.lines, List.forall_mem_singleton]
    exact wording.line_oneLine (by decide)
  | otherwise wording body closing =>
    simp only [Branches.lines, List.forall_mem_cons, List.forall_mem_append]
    exact ⟨wording.line_oneLine (by decide), body.lines_oneLine,
      closing.line_oneLine (by decide), fun _ none => absurd none List.not_mem_nil⟩
  | orElse wording body rest =>
    simp only [Branches.lines, List.forall_mem_cons, List.forall_mem_append]
    exact ⟨wording.line_oneLine (by decide), body.lines_oneLine, rest.lines_oneLine⟩

end

end Multipass.Preprocess
