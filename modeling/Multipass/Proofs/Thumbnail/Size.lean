import Mathlib.Data.List.Range
import Multipass.Proofs.Fallible
import Multipass.Proofs.Overflow
import Multipass.Thumbnail.Frame

/-!
# Frames and their sizes

A frame is written if it has an area and its bytes fill its size exactly, and refused otherwise.
A frame of one colour counts its bytes in 32 bits, and the check of a frame in 64 bits: there is
no frame of one colour, and no check, for a size whose bytes cannot be counted so.
-/

namespace Multipass

/-- The four bytes of a pixel of this colour. -/
def Colour.channels (colour : Colour) : List UInt8 :=
  [colour.red, colour.green, colour.blue, colour.alpha]

namespace Frame

/-- The number of bytes that a size asks for. -/
def neededBytes (width height : UInt32) : Nat :=
  width.toNat * height.toNat * 4

/-- Bytes can be counted if their number is below the limit: there are fewer pixels than bytes. -/
theorem countBytes_eq (limit : Nat) (width height : UInt32) :
    countBytes limit width height =
      if neededBytes width height < limit then .ok (neededBytes width height)
      else .error .multiplication := by
  unfold countBytes Checked.mul neededBytes
  split
  · rfl
  · rename_i many
    rw [if_neg (by omega)]
    rfl

/-! ## Frames of one colour -/

section Solid

variable (width height : UInt32) (colour : Colour)

/-- Pixels of one colour are the channels of the colour, place by place. -/
theorem flatten_replicate_channels (pixels : Nat) :
    (List.replicate pixels colour.channels).flatten =
      (List.range (pixels * 4)).map colour.channelAt := by
  induction pixels with
  | zero => rfl
  | succ pixels ih =>
    have last : colour.channels = [colour.channelAt (pixels * 4), colour.channelAt (pixels * 4 + 1),
        colour.channelAt (pixels * 4 + 2), colour.channelAt (pixels * 4 + 3)] := by
      simp [Colour.channels, Colour.channelAt, Nat.add_mod]
    rw [List.replicate_succ', List.flatten_append, ih, last, Nat.succ_mul]
    simp [List.range_succ]

/-- The frame that repeats a colour for each of its pixels. -/
def filled : Frame :=
  ⟨width, height, ((List.replicate (width.toNat * height.toNat) colour.channels).flatten).toArray⟩

theorem size_filled : (filled width height colour).bytes.size = neededBytes width height := by
  rw [filled, List.size_toArray, flatten_replicate_channels, List.length_map, List.length_range,
    neededBytes]

/-- A frame of one colour is filled with it, if 32 bits can count its bytes. -/
theorem solid_eq :
    solid width height colour =
      if neededBytes width height < 2 ^ 32 then .ok (filled width height colour)
      else .error .multiplication := by
  have bytes : (Array.ofFn fun place : Fin (neededBytes width height) => colour.channelAt place) =
      (filled width height colour).bytes := by
    refine Array.ext' ?_
    rw [filled, flatten_replicate_channels, Array.toList_ofFn]
    apply List.ext_getElem
    · simp [neededBytes]
    · intro place inside inside'
      simp
  rw [solid, countBytes_eq]
  change (if neededBytes width height < 2 ^ 32 then _ else _) >>= _ = _
  split
  · exact congrArg (fun bytes => Except.ok (Frame.mk width height bytes)) bytes
  · rfl

end Solid

/-! ## Frames that are written -/

variable {frame : Frame}

/-- The frame has an area, and the bytes that its size asks for. -/
def IsWhole (frame : Frame) : Prop :=
  frame.Fills (neededBytes frame.width frame.height)

theorem not_isWhole_iff :
    ¬ frame.IsWhole ↔ frame.width = 0 ∨ frame.height = 0 ∨
      frame.bytes.size ≠ neededBytes frame.width frame.height := by
  simp only [IsWhole, Fills, not_and_or, ne_eq, not_not]

theorem isWhole_filled {width height : UInt32} (wide : width ≠ 0) (high : height ≠ 0)
    (colour : Colour) : (filled width height colour).IsWhole :=
  ⟨wide, high, size_filled width height colour⟩

end Frame

/-- An image library that takes every whole frame for an image and writes each picture of one to
a file. -/
structure Codec.Writes (codec : Codec) : Prop where
  takes : ∀ frame : Frame, frame.IsWhole → codec.takes frame = true
  write : ∀ (frame : Frame) format, frame.IsWhole →
    ∃ file, codec.write format (frame.picture format) = .returned (.ok file)

namespace Frame

variable {codec : Codec} {frame : Frame} {format : ImageFormat}

theorem write_of_isWhole (writes : codec.Writes) (isWhole : frame.IsWhole)
    (format : ImageFormat) : ∃ thumbnail, frame.write codec format = .returned (.ok thumbnail) := by
  obtain ⟨file, written⟩ := writes.write frame format isWhole
  refine ⟨dataUrl format file, ?_⟩
  rw [write, if_pos (writes.takes frame isWhole), written]

theorem expectedBytes_eq (frame : Frame) :
    frame.expectedBytes =
      if neededBytes frame.width frame.height < 2 ^ 64 then
        .ok (neededBytes frame.width frame.height)
      else .error .multiplication :=
  countBytes_eq _ _ _

/-- A frame of which 64 bits cannot count the bytes panics. -/
theorem encode_of_le (great : 2 ^ 64 ≤ neededBytes frame.width frame.height) :
    frame.encode codec format = .panicked (.text Overflow.multiplication.message) := by
  rw [encode, expectedBytes_eq, if_neg (Nat.not_lt_of_le great)]
  rfl

section Counted

variable (small : neededBytes frame.width frame.height < 2 ^ 64)

include small

/-- Any other frame that is not whole is refused. -/
theorem encode_of_not_isWhole (misfit : ¬ frame.IsWhole) :
    frame.encode codec format = .returned (.error (.render
      (FrameProblem.misfit frame (neededBytes frame.width frame.height)).message)) := by
  rw [encode, expectedBytes_eq, if_pos small]
  exact if_neg misfit

theorem encode_of_isWhole (writes : codec.Writes) (isWhole : frame.IsWhole)
    (format : ImageFormat) : ∃ thumbnail, frame.encode codec format = .returned (.ok thumbnail) := by
  obtain ⟨thumbnail, written⟩ := write_of_isWhole writes isWhole format
  refine ⟨thumbnail, ?_⟩
  rw [encode, expectedBytes_eq, if_pos small]
  simp only
  rw [if_pos (show frame.Fills _ from isWhole), written]
  rfl

end Counted

/-- A frame of one colour repeats the colour, pixel by pixel, if 32 bits can count its bytes;
there is no such frame otherwise. With an image library that writes whole frames, a frame panics
exactly if 64 bits cannot count the bytes that its size asks for. Any other frame is refused, with
a render error, exactly if it has no area or does not fill its size, and written otherwise. So a
frame of one colour that has an area is written, if there is such a frame at all. -/
theorem solid_sizes_agree (writes : codec.Writes) :
    (∀ width height colour, solid width height colour =
      if neededBytes width height < 2 ^ 32 then .ok (filled width height colour)
      else .error .multiplication) ∧
    (∀ (frame : Frame) format,
      ((∃ payload, frame.encode codec format = .panicked payload) ↔
        2 ^ 64 ≤ neededBytes frame.width frame.height) ∧
      ((∃ message, frame.encode codec format = .returned (.error (.render message))) ↔
        neededBytes frame.width frame.height < 2 ^ 64 ∧
          (frame.width = 0 ∨ frame.height = 0 ∨
            frame.bytes.size ≠ neededBytes frame.width frame.height)) ∧
      ((∃ thumbnail, frame.encode codec format = .returned (.ok thumbnail)) ↔
        neededBytes frame.width frame.height < 2 ^ 64 ∧ frame.IsWhole)) ∧
    ∀ width height colour frame format, solid width height colour = .ok frame → width ≠ 0 →
      height ≠ 0 → ∃ thumbnail, frame.encode codec format = .returned (.ok thumbnail) := by
  refine ⟨solid_eq, ?_, ?_⟩
  · intro frame format
    rw [← not_isWhole_iff]
    by_cases small : neededBytes frame.width frame.height < 2 ^ 64
    · by_cases isWhole : frame.IsWhole
      · obtain ⟨thumbnail, accepted⟩ := encode_of_isWhole small writes isWhole format
        rw [accepted]
        exact ⟨iff_of_false nofun (Nat.not_le_of_lt small),
          iff_of_false nofun fun both => both.2 isWhole,
          iff_of_true ⟨thumbnail, rfl⟩ ⟨small, isWhole⟩⟩
      · rw [encode_of_not_isWhole small isWhole]
        exact ⟨iff_of_false nofun (Nat.not_le_of_lt small),
          iff_of_true ⟨_, rfl⟩ ⟨small, isWhole⟩,
          iff_of_false nofun fun both => isWhole both.2⟩
    · have great := Nat.le_of_not_lt small
      rw [encode_of_le great]
      exact ⟨iff_of_true ⟨_, rfl⟩ great, iff_of_false nofun fun both => small both.1,
        iff_of_false nofun fun both => small both.1⟩
  · intro width height colour frame format isSolid wide high
    rw [solid_eq] at isSolid
    split at isSolid
    · rename_i small
      cases isSolid
      exact encode_of_isWhole (Nat.lt_trans small (by decide)) writes
        (isWhole_filled wide high colour) format
    · cases isSolid

end Frame

/-- An image library that takes every frame with bytes enough, and whose files are the bytes of the
pictures. -/
def Codec.plain : Codec where
  takes := fun frame => decide (Frame.neededBytes frame.width frame.height ≤ frame.bytes.size)
  write := fun _ picture => .returned (.ok picture.bytes)

theorem Codec.plain_writes : Codec.plain.Writes where
  takes _ isWhole := decide_eq_true (Nat.le_of_eq isWhole.2.2.symm)
  write _ _ _ := ⟨_, rfl⟩

namespace Frame

/-- A frame of eight pixels of one colour is written, and one that lacks a byte is refused. -/
theorem solid_sizes_agree_cut :
    Codec.plain.Writes ∧
      (∃ thumbnail, (filled 4 2 ⟨10, 200, 30, 128⟩).encode .plain .jpeg =
        .returned (.ok thumbnail)) ∧
      ∃ message, (Frame.mk 4 2 (Array.replicate 31 0)).encode .plain .jpeg =
        .returned (.error (.render message)) := by
  obtain ⟨solid, sizes, written⟩ := solid_sizes_agree Codec.plain_writes
  refine ⟨Codec.plain_writes, ?_, ?_⟩
  · exact written 4 2 ⟨10, 200, 30, 128⟩ _ .jpeg (solid 4 2 _) (by decide) (by decide)
  · exact (sizes (Frame.mk 4 2 (Array.replicate 31 0)) .jpeg).2.1.mpr (by decide)

/-- There is no frame of 32768 × 32768 pixels of one colour, though 64 bits count its bytes. And a
frame of 2³¹ × 2³¹ pixels without a byte is not refused, but panics. -/
theorem not_fills_solid :
    solid 32768 32768 ⟨255, 0, 0, 255⟩ = .error .multiplication ∧
      neededBytes 32768 32768 = 2 ^ 32 ∧
      (Frame.mk 2147483648 2147483648 #[]).bytes.size ≠ neededBytes 2147483648 2147483648 ∧
      (Frame.mk 2147483648 2147483648 #[]).encode .plain .png =
        .panicked (.text "attempt to multiply with overflow") := by
  refine ⟨?_, by decide, by decide, ?_⟩
  · rw [solid_eq, if_neg (by decide)]
  · exact encode_of_le (by decide)

end Frame

end Multipass
