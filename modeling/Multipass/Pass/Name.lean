import Multipass.Text.Blank

/-!
# Names of passes

A shader has an Image pass, up to four buffer passes whose output the others can
sample, and a Common text that is put in front of each of them.
-/

namespace Multipass

/-- The passes of a shader. Common is not drawn: it is code that all the others share. -/
inductive PassName where
  | image
  | bufferA
  | bufferB
  | bufferC
  | bufferD
  | common
  deriving DecidableEq, Repr

namespace PassName

/-- Every pass that is compiled, in the order in which passes are compiled and
    drawn: buffers first, so that Image can sample their output. -/
def renderOrder : List PassName :=
  [bufferA, bufferB, bufferC, bufferD, image]

/-- The name shown to the user. -/
def title : PassName → String
  | image => "Image"
  | bufferA => "Buffer A"
  | bufferB => "Buffer B"
  | bufferC => "Buffer C"
  | bufferD => "Buffer D"
  | common => "Common"

/-- The name used in documents. -/
def key : PassName → String
  | image => "image"
  | bufferA => "buffer_a"
  | bufferB => "buffer_b"
  | bufferC => "buffer_c"
  | bufferD => "buffer_d"
  | common => "common"

/-- Read a name given by the user. Blanks, underscores, hyphens and the case of
    ASCII letters do not matter. -/
def ofText? (text : String) : Option PassName :=
  let letters := text.toList.filter fun c => !(Text.isBlank c || c == '_' || c == '-')
  match String.ofList (letters.map Char.toLower) with
  | "image" | "mainimage" => some image
  | "buffera" => some bufferA
  | "bufferb" => some bufferB
  | "bufferc" => some bufferC
  | "bufferd" => some bufferD
  | "common" => some common
  | _ => none

end PassName

end Multipass
