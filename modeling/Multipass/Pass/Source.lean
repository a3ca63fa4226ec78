import Multipass.Pass.Name
import Multipass.Text.Lines
import Multipass.Text.Search

/-!
# Sources of passes

A snapshot of a shader is a list of passes with their source texts.
-/

namespace Multipass

/-- A pass with its code. -/
structure PassSource where
  name : PassName
  code : String
  deriving DecidableEq, Repr

/-- Does the pass hold anything besides blank lines and line comments? -/
def PassSource.hasCode (source : PassSource) : Bool :=
  (Text.logLines source.code.toList).any fun line =>
    let trimmed := Text.trim line
    !trimmed.isEmpty && !Text.startsWith ['/', '/'] trimmed

/-- The first pass of a snapshot with a given name. -/
def findPass? (passes : List PassSource) (name : PassName) : Option PassSource :=
  passes.find? (·.name == name)

/-- The Common text of a snapshot; empty when there is none. -/
def commonCode (passes : List PassSource) : String :=
  ((findPass? passes .common).map (·.code)).getD ""

end Multipass
