import Multipass.Attribution
import Multipass.Diagnostic
import Multipass.Log.Phrasing
import Multipass.Text.DecimalDigit
import Multipass.Text.Lines

/-!
# Diagnostics from a compiler log

A log line of the form `ERROR: <source>:<line>: <message>`, or with `WARNING`, gives
a diagnostic on the pass and line that its line belongs to. Another line that speaks
of an error or a failure gives an error without a line, once for each sentence. The
rest of a log says nothing.
-/

namespace Multipass.Log

/-- A log line that names a line of the compiled text. -/
structure Entry where
  severity : Severity
  line : Nat
  message : List Char
  deriving DecidableEq, Repr

/-- The value of a line number. Digits outside ASCII, and numbers beyond a 64-bit
    word, count as line zero. -/
def lineNumber (digits : List Char) : Nat :=
  match Text.decimalValue? digits with
  | some value => if value < UInt64.size then value else 0
  | none => 0

/-- Read the severity that a log line begins with. -/
def severity? (text : List Char) : Option (Severity × List Char) :=
  match Text.after? "ERROR:".toList text with
  | some rest => some (.error, rest)
  | none => (Text.after? "WARNING:".toList text).map (.warning, ·)

/-- Read a log line that names a line. -/
def Entry.ofLine? (text : List Char) : Option Entry := do
  let (severity, rest) ← severity? (Text.trimStart text)
  let (_, rest) ← Text.breakAt? [':'] rest
  let digits := rest.takeWhile Text.isDecimalDigit
  let message ← Text.after? [':'] (rest.dropWhile Text.isDecimalDigit)
  if digits.isEmpty then none
  else some ⟨severity, lineNumber digits, Text.trimStart message⟩

/-- Does a line speak of an error or a failure, in any case of its letters? -/
def speaksOfFailure (line : List Char) : Bool :=
  let lower := line.map Char.toLower
  Text.contains "error".toList lower || Text.contains "failed".toList lower

/-- What one line of the log adds to the diagnostics so far. -/
def addLine (pass : PassName) (attribution : Attribution) (found : List Diagnostic)
    (line : List Char) : Checked (List Diagnostic) :=
  if Text.isAllBlank line then return found
  else
    match Entry.ofLine? line with
    | some entry => do
      let (owner, line) ← attribution.finalLine entry.line
      return found ++ [⟨line, owner, entry.severity,
        String.ofList (sentenceFor entry.message), entry.line⟩]
    | none =>
      if speaksOfFailure line then
        let message := String.ofList (sentenceFor line)
        let seen := found.any fun earlier =>
          earlier.sourceLine == 0 && earlier.pass == pass && earlier.message == message
        return if seen then found else found ++ [.lineless pass message]
      else return found

end Multipass.Log

namespace Multipass

/-- The diagnostics of a compiler log for a pass. A line number that overflows ends the
    reading. -/
def mapDiagnostics (log : String) (pass : PassName) (attribution : Attribution) :
    Checked (List Diagnostic) :=
  (Text.logLines log.toList).foldlM (Log.addLine pass attribution) []

end Multipass
