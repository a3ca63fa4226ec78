/-!
# Pieces and lines of a text

`pieces` cuts a text at every occurrence of a separator, so there is always at
least one piece and joining the pieces gives the text back. Lines of a source
are its pieces at line feeds. A compiler log is read by `logLines` instead,
which ends a line at `"\n"` or `"\r\n"` and has no line after the last end.
-/

namespace Multipass.Text

/-- The text cut at every separator; `[]` is one empty piece. -/
def pieces (separator : Char) : List Char → List (List Char)
  | [] => [[]]
  | c :: rest =>
    if c = separator then [] :: pieces separator rest
    else (pieces separator rest).modifyHead (c :: ·)

/-- The pieces put together again, with the separator between neighbours. -/
def join (separator : Char) (parts : List (List Char)) : List Char :=
  [separator].intercalate parts

/-- The lines of a source text; the empty text is one empty line. -/
def lines (text : List Char) : List (List Char) :=
  pieces '\n' text

/-- Lines put together, with a line feed between each two of them. -/
def unlines (parts : List (List Char)) : List Char :=
  join '\n' parts

/-- The number of lines, which is one more than that of the line feeds. -/
def lineCount (text : List Char) : Nat :=
  (lines text).length

/-- A line without the carriage return that precedes its line feed. -/
def dropCarriageReturn (line : List Char) : List Char :=
  if line.getLast? = some '\r' then line.dropLast else line

/-- Lines of a log: every line but the last was ended by a line feed, and may
    carry a carriage return before it; what follows the last line feed is a
    line only when it is not empty. -/
def endedLines : List (List Char) → List (List Char)
  | [] => []
  | [last] => if last.isEmpty then [] else [last]
  | line :: rest => dropCarriageReturn line :: endedLines rest

/-- The lines of a text that ends each of its lines: a carriage return in front of a line feed
    belongs to the end of the line, and there is no empty line behind the last line feed. -/
def logLines (text : List Char) : List (List Char) :=
  endedLines (lines text)

theorem pieces_ne_nil (separator : Char) (text : List Char) :
    pieces separator text ≠ [] := by
  induction text with
  | nil => simp [pieces]
  | cons c rest ih =>
    unfold pieces
    split
    · simp
    · cases hparts : pieces separator rest with
      | nil => exact absurd hparts ih
      | cons first others => simp [List.modifyHead]

/-- A text has at least one line. -/
theorem lineCount_pos (text : List Char) : 0 < lineCount text :=
  List.length_pos_iff.mpr (pieces_ne_nil '\n' text)

end Multipass.Text
