import Multipass.Assembly.Scaffold
import Multipass.Attribution
import Multipass.Diagnostic
import Multipass.Preprocess.Run

/-!
# Assembling a pass

The Common text and the text of a pass are preprocessed together, with an empty
line between them, and put into the scaffold. Errors are attributed to the text
they lie in: any error in Common fails Common, and the others fail the pass.
-/

namespace Multipass

/-- A pass as it is handed to the compiler. -/
structure AssembledPass where
  attribution : Attribution
  expandedCode : String
  finalSource : String

namespace Assembly

/-- A text without the backslash that ends it, spaces and tabs after it included. -/
def dropContinuation (text : List Char) : List Char :=
  let trimmed := Text.dropTrailing Text.isSpaceOrTab text
  if trimmed.getLast? = some '\\' then trimmed.dropLast else text

/-- Common in front of a pass. `commonLines` counts the lines of Common, zero when
    it is blank; then the pass stands alone. -/
structure Combined where
  commonText : List Char
  commonLines : Nat
  text : List Char

/-- The text that is preprocessed for a pass: Common, an empty line and the code of the pass. A
    blank Common adds nothing. -/
def combine (common code : List Char) : Combined :=
  let common := dropContinuation common
  if Text.isAllBlank common then ⟨common, 0, code⟩
  else ⟨common, Text.lineCount common, common ++ '\n' :: '\n' :: code⟩

/-- The line of Common or of the pass that a line of the combined text is. The
    empty line between the two texts is a line of neither. -/
def sourceLine? (commonLines line : Nat) : Option Nat :=
  if commonLines = 0 ∨ line ≤ commonLines then some line
  else if commonLines + 1 < line then some (line - commonLines - 1)
  else none

/-- The failure that the errors of the combined text amount to. -/
def attributeErrors (errors : List (Located Preprocess.Problem)) (commonLines : Nat)
    (pass : PassName) : PassFailure :=
  let errors := errors.map (·.map Preprocess.Problem.message)
  let (inCommon, others) := errors.partition fun error =>
    1 ≤ error.line && error.line ≤ commonLines
  if inCommon.isEmpty then
    let offset := if commonLines = 0 then 0 else commonLines + 1
    ⟨pass, others.map fun error =>
      if error.line = 0 then error else { error with line := max (error.line - offset) 1 }⟩
  else ⟨.common, inCommon⟩

/-- The line map with lines of the combined text turned into lines of their own
    texts. -/
def sourceLineMap (combined : Combined) (lineMap : LineMap) : LineMap :=
  lineMap.changeOrigins (sourceLine? combined.commonLines)

/-- The number of lines that Common has when it is preprocessed on its own. -/
def expandedCommonLines (combined : Combined) : Nat :=
  if combined.commonLines = 0 then 0
  else Text.lineCount (Preprocess.outcomeOf combined.commonText).codeText

end Assembly

open Assembly in
/-- Combine Common and the code of a pass, preprocess them, and put them into the
    scaffold. -/
def assemble (common code : String) (pass : PassName) : Except PassFailure AssembledPass :=
  let combined := combine common.toList code.toList
  let outcome := Preprocess.outcomeOf combined.text
  if outcome.isOk then
    let lines := Text.lines outcome.codeText
    let expanded := Text.unlines (lines.map Scaffold.relocatedLine)
    let head := Scaffold.head (Scaffold.headPrecisions (Scaffold.statedPrecisions lines))
    .ok {
      attribution := {
        pass
        startLine := head.count '\n'
        commonLines := expandedCommonLines combined
        lineMap := sourceLineMap combined outcome.lineMap }
      expandedCode := String.ofList expanded
      finalSource := String.ofList (head ++ expanded ++ Scaffold.tail) }
  else .error (attributeErrors outcome.errors combined.commonLines pass)

end Multipass
