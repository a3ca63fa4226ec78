/-!
# Uniforms

The values that a still frame is drawn with, laid out as the uniform block of the
scaffold reads them. Single precision numbers are kept as their bit patterns, since
the block holds bit patterns.
-/

namespace Multipass

/-- A reading of the local clock. Months are counted from zero, and `second` is the number
    of seconds since midnight. -/
structure Moment where
  year : Int32
  month : UInt32
  day : UInt32
  second : UInt32
  nanosecond : UInt32
  deriving DecidableEq, Repr

/-- A date as the block holds it: year, month, day, and seconds since midnight. -/
structure Date where
  year : UInt32
  month : UInt32
  day : UInt32
  seconds : UInt32
  deriving DecidableEq, Repr

/-- The date of a reading of the clock. -/
def Moment.date (now : Moment) : Date where
  year := now.year.toFloat32.toBits
  month := now.month.toFloat32.toBits
  day := now.day.toFloat32.toBits
  seconds := (now.second.toFloat32 + now.nanosecond.toFloat32 / 1e9).toBits

/-- The values for a still frame: its resolution, its logical time in seconds, the
    number of the frame at that time, and the date on which it is drawn. -/
structure Uniforms where
  width : UInt32
  height : UInt32
  time : UInt32
  frame : Int32
  date : Date
  deriving DecidableEq, Repr

namespace Uniforms

/-- Frames are counted sixty to a second. The product is cut off to a whole number; one
    that is out of range becomes the nearest end of the range, and one that is no number
    becomes zero. -/
def frameAt (time : Float32) : Int32 :=
  (time * 60).toInt32

/-- The values for a size and the bit pattern of a logical time. The date is that of the
    clock. -/
def atTime (width height time : UInt32) (now : Moment) : Uniforms :=
  ⟨width.toFloat32.toBits, height.toFloat32.toBits, time, frameAt (Float32.ofBits time),
    now.date⟩

/-- The words of the block. A resolution has a third part, which is one; the time from
    frame to frame is a sixtieth; two words are padding, and the mouse rests. -/
def words (uniforms : Uniforms) : List UInt32 :=
  [uniforms.width, uniforms.height, (1 : Float32).toBits, uniforms.time,
    (1 / 60 : Float32).toBits, uniforms.frame.toUInt32, 0, 0,
    0, 0, 0, 0,
    uniforms.date.year, uniforms.date.month, uniforms.date.day, uniforms.date.seconds]

/-- A word as bytes, the lowest first. -/
def wordBytes (word : UInt32) : List UInt8 :=
  [word.toUInt8, (word >>> 8).toUInt8, (word >>> 16).toUInt8, (word >>> 24).toUInt8]

/-- The bytes of the block. -/
def bytes (uniforms : Uniforms) : List UInt8 :=
  uniforms.words.flatMap wordBytes

/-- The block has 64 bytes, whatever the values are. -/
theorem length_bytes (uniforms : Uniforms) : uniforms.bytes.length = 64 := rfl

end Uniforms

end Multipass
