import Multipass.Text.Blank
import Multipass.Text.Lines
import Multipass.Text.Search
import Multipass.Text.Word

/-!
# The scaffold of a pass

Each pass is compiled inside a fixed text that declares the uniforms, the sampling
inputs and the output, and calls the entry point. The scaffold has a version line of
its own and one precision statement for each type, so the `#version` lines and
precision statements of the code are taken out of it.
-/

namespace Multipass.Scaffold

/-- A precision statement for a type. -/
structure Precision where
  type : List Char
  qualifier : List Char
  deriving DecidableEq, Repr

/-- The statements for types about which the code says nothing. -/
def defaultPrecisions : List Precision :=
  [⟨"float".toList, "highp".toList⟩, ⟨"int".toList, "highp".toList⟩]

/-- The statement that sets the precision of a type. -/
def Precision.statement (precision : Precision) : List Char :=
  "precision ".toList ++ precision.qualifier ++ ' ' :: precision.type ++ [';']

/-- The scaffold from the precision statements to the code. -/
def declarations : List String := [
  "",
  "// Auto-injected uniforms (available in all passes)",
  "layout(set = 0, binding = 0) uniform ShaderInputs \x7b",
  "    vec3 iResolution;",
  "    float iTime;",
  "    float iTimeDelta;",
  "    int iFrame;",
  "    vec4 iMouse;",
  "    vec4 iDate;",
  "\x7d;",
  "",
  "// Sampling inputs (iChannel0-3)",
  "layout(set = 1, binding = 0) uniform texture2D _iChannel0Texture;",
  "layout(set = 1, binding = 1) uniform sampler _iChannel0Sampler;",
  "layout(set = 1, binding = 2) uniform texture2D _iChannel1Texture;",
  "layout(set = 1, binding = 3) uniform sampler _iChannel1Sampler;",
  "layout(set = 1, binding = 4) uniform texture2D _iChannel2Texture;",
  "layout(set = 1, binding = 5) uniform sampler _iChannel2Sampler;",
  "layout(set = 1, binding = 6) uniform texture2D _iChannel3Texture;",
  "layout(set = 1, binding = 7) uniform sampler _iChannel3Sampler;",
  "#define iChannel0 sampler2D(_iChannel0Texture, _iChannel0Sampler)",
  "#define iChannel1 sampler2D(_iChannel1Texture, _iChannel1Sampler)",
  "#define iChannel2 sampler2D(_iChannel2Texture, _iChannel2Sampler)",
  "#define iChannel3 sampler2D(_iChannel3Texture, _iChannel3Sampler)",
  "",
  "layout(location = 0) out vec4 fragColor;",
  ""]

/-- The lines before the code. -/
def headLines (precisions : List Precision) : List (List Char) :=
  "#version 450".toList :: precisions.map Precision.statement ++
    declarations.map String.toList

/-- The text before the code. -/
def head (precisions : List Precision) : List Char :=
  Text.unlines (headLines precisions) ++ ['\n']

/-- The text after the code. -/
def tail : List Char :=
  Text.unlines (["", "", "void main() \x7b", "    mainImage(fragColor, gl_FragCoord.xy);",
    "\x7d", ""].map String.toList)

/-- A `#version` line, with blanks allowed around the `#`. -/
def isVersionLine (line : List Char) : Bool :=
  match Text.trimStart line with
  | '#' :: rest => (Text.after? "version".toList (Text.trimStart rest)).any Text.atWordEnd
  | _ => false

/-- The precisions that can be set. -/
def qualifiers : List (List Char) :=
  ["lowp".toList, "mediump".toList, "highp".toList]

/-- A line that is one precision statement and nothing else. -/
def precisionOfLine? (line : List Char) : Option Precision := do
  let rest ← Text.after? "precision".toList (Text.trimStart line)
  let rest ← Text.afterBlanks? rest
  let (qualifier, rest) ← qualifiers.findSome? fun word => (Text.after? word rest).map (word, ·)
  let rest ← Text.afterBlanks? rest
  let (type, rest) ← Text.leadingWord? rest
  let rest ← Text.after? [';'] (Text.trimStart rest)
  if Text.isAllBlank rest then some ⟨type, qualifier⟩ else none

/-- The line that takes the place of a line of code: nothing for a version line or
    a precision statement, which the head has instead. -/
def relocatedLine (line : List Char) : List Char :=
  if isVersionLine line || (precisionOfLine? line).isSome then [] else line

/-- Note a statement. A later one for the same type decides, in the place of the
    first. -/
def notePrecision (noted : List Precision) (precision : Precision) : List Precision :=
  if noted.any (·.type == precision.type) then
    noted.map fun earlier => if earlier.type = precision.type then precision else earlier
  else noted ++ [precision]

/-- The precision statements of the code, one for each type. -/
def statedPrecisions (lines : List (List Char)) : List Precision :=
  ((lines.filter (!isVersionLine ·)).filterMap precisionOfLine?).foldl notePrecision []

/-- The statements of the head: the defaults, as far as the code does not override
    them, and then the statements for other types. -/
def headPrecisions (stated : List Precision) : List Precision :=
  (defaultPrecisions.map fun default =>
    (stated.find? (·.type == default.type)).getD default) ++
  stated.filter fun precision => !defaultPrecisions.any (·.type == precision.type)

end Multipass.Scaffold
