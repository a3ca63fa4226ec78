import Multipass.Diagnostic
import Multipass.Document.Config
import Multipass.Overflow
import Multipass.Text.Base64

/-!
# Frames and thumbnails

A render context hands over its pixels as a frame. A frame whose bytes fill its size
exactly is written to an image file by an image library, and the thumbnail is the data
URL of that file; any other frame is refused.
-/

namespace Multipass

/-- A colour in four channels. -/
structure Colour where
  red : UInt8
  green : UInt8
  blue : UInt8
  alpha : UInt8
  deriving DecidableEq, Repr

/-- The channel that a byte at some place of a frame belongs to. -/
def Colour.channelAt (colour : Colour) (place : Nat) : UInt8 :=
  match place % 4 with
  | 0 => colour.red
  | 1 => colour.green
  | 2 => colour.blue
  | _ => colour.alpha

/-- Pixels read back from a render context: four bytes each, row by row, the top row
    first. -/
structure Frame where
  width : UInt32
  height : UInt32
  bytes : Array UInt8
  deriving DecidableEq, Repr

namespace Frame

/-- The bytes that a size asks for, counted in words that are below `limit`. The pixels are
    counted first. -/
def countBytes (limit : Nat) (width height : UInt32) : Checked Nat := do
  let pixels ← Checked.mul limit width.toNat height.toNat
  Checked.mul limit pixels 4

/-- A frame of one colour. Its bytes are counted in 32 bits. -/
def solid (width height : UInt32) (colour : Colour) : Checked Frame := do
  let size ← countBytes UInt32.size width height
  return ⟨width, height, Array.ofFn fun place : Fin size => colour.channelAt place⟩

/-- The bytes that the size of a frame asks for, counted in 64 bits. -/
def expectedBytes (frame : Frame) : Checked Nat :=
  countBytes UInt64.size frame.width frame.height

/-- The frame has an area, and its bytes are as many as expected. -/
def Fills (frame : Frame) (expected : Nat) : Prop :=
  frame.width ≠ 0 ∧ frame.height ≠ 0 ∧ frame.bytes.size = expected

instance (frame : Frame) (expected : Nat) : Decidable (frame.Fills expected) :=
  inferInstanceAs (Decidable (_ ∧ _ ∧ _))

end Frame

/-- Why a frame is not written. -/
inductive FrameProblem where
  | misfit (frame : Frame) (expected : Nat)
  | short
  | failed (reason : String)
  deriving DecidableEq, Repr

/-- What the user is told. -/
def FrameProblem.message : FrameProblem → String
  | misfit frame expected =>
    s!"Captured frame is {frame.width.toNat}x{frame.height.toNat} but holds " ++
      s!"{frame.bytes.size} bytes (expected {expected})"
  | short => "Captured frame buffer too small"
  | failed reason => s!"Failed to encode thumbnail: {reason}"

/-- An image as it is written to a file, with the bytes of each pixel side by side. -/
structure Picture where
  width : UInt32
  height : UInt32
  channels : Nat
  bytes : List UInt8
  deriving DecidableEq, Repr

/-- The number of channels that a format keeps. JPEG has no place for alpha. -/
def ImageFormat.channels : ImageFormat → Nat
  | png => 4
  | jpeg => 3

/-- The picture that a frame shows in a format. -/
def Frame.picture (frame : Frame) (format : ImageFormat) : Picture where
  width := frame.width
  height := frame.height
  channels := format.channels
  bytes := (frame.bytes.toList.zipIdx.filter fun byte => byte.2 % 4 < format.channels).map Prod.fst

/-- An image library, which is foreign code. It takes a frame for an image if there are bytes
    enough, and writes a picture to a file of a format. -/
structure Codec where
  takes : Frame → Bool
  write : ImageFormat → Picture → Foreign (Except String (List UInt8))

/-- A thumbnail: the data URL of an image file. -/
abbrev Thumbnail := String

/-- The bytes of a file of a format, as a URL. -/
def dataUrl (format : ImageFormat) (file : List UInt8) : Thumbnail :=
  s!"data:{format.mimeType};base64,{String.ofList (Text.Base64.encode file)}"

namespace Frame

/-- Write a frame that fills its size. -/
def write (codec : Codec) (frame : Frame) (format : ImageFormat) :
    Foreign (Except FrameProblem Thumbnail) :=
  if codec.takes frame then
    match codec.write format (frame.picture format) with
    | .panicked payload => .panicked payload
    | .returned (.error reason) => .returned (.error (.failed reason))
    | .returned (.ok file) => .returned (.ok (dataUrl format file))
  else .returned (.error .short)

/-- The thumbnail that a frame gives in a format. Whatever is wrong with the frame is an
    error of the rendering. -/
def encode (codec : Codec) (frame : Frame) (format : ImageFormat) :
    Foreign (Except ShaderError Thumbnail) :=
  match frame.expectedBytes with
  | .error overflow => overflow.panic
  | .ok expected =>
    if frame.Fills expected then
      match frame.write codec format with
      | .panicked payload => .panicked payload
      | .returned written =>
        .returned (written.mapError fun problem => .render problem.message)
    else .returned (.error (.render (FrameProblem.misfit frame expected).message))

end Frame

end Multipass
