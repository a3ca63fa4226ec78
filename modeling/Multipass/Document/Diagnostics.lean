import Multipass.Diagnostic
import Multipass.Json.Value

/-!
# Diagnostics as a document

The diagnostics of a compile, written for other programs to read.
-/

namespace Multipass

/-- The name of a severity in a document. -/
def Severity.name : Severity → String
  | error => "Error"
  | warning => "Warning"

/-- A diagnostic as it is written. -/
def Diagnostic.toValue (diagnostic : Diagnostic) : Json.Value :=
  .object [
    ("original_line", .natural diagnostic.sourceLine),
    ("pass", .text diagnostic.pass.key),
    ("severity", .text diagnostic.severity.name),
    ("message", .text diagnostic.message),
    ("raw_compiler_line", .natural diagnostic.compilerLine)]

/-- Write a list of diagnostics. -/
def diagnosticsToJson (diagnostics : List Diagnostic) : String :=
  (Json.Value.list (diagnostics.map (·.toValue))).pretty

end Multipass
