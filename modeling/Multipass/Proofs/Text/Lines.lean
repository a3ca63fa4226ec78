import Mathlib.Data.List.Basic
import Multipass.Text.Blank
import Multipass.Text.Lines

/-!
# Lines and their text

Cutting a text into lines and putting lines together undo each other, as long as no
line contains a line feed. The lines of two texts with a line feed in between are
the lines of the one and the lines of the other.
-/

namespace Multipass.Text

theorem pieces_eq_splitOn (separator : Char) (text : List Char) :
    pieces separator text = text.splitOn separator := by
  induction text with
  | nil => rfl
  | cons c rest ih =>
    rw [pieces, ih, List.splitOn_cons_eq_if_modifyHead]
    simp only [beq_iff_eq]

theorem lines_append (front back : List Char) :
    lines (front ++ '\n' :: back) = lines front ++ lines back := by
  simp only [lines, pieces_eq_splitOn]
  exact List.splitOn_append_cons_self front back

/-- No line contains a line feed. -/
theorem noBreak_of_mem_lines {text line : List Char} (member : line ∈ lines text) :
    '\n' ∉ line := by
  unfold lines at member
  induction text generalizing line with
  | nil => simp_all [pieces]
  | cons c rest ih =>
    unfold pieces at member
    split at member
    · rcases List.mem_cons.mp member with rfl | later
      · exact List.not_mem_nil
      · exact ih later
    · rename_i different
      obtain ⟨first, others, cut⟩ := List.exists_cons_of_ne_nil (pieces_ne_nil '\n' rest)
      rw [cut] at member ih
      rcases List.mem_cons.mp member with rfl | later
      · have := ih List.mem_cons_self
        simp [this, Ne.symm different]
      · exact ih (List.mem_cons_of_mem _ later)

/-- The characters of a line are characters of the text. -/
theorem lines_subset {text line : List Char} (member : line ∈ lines text) : line ⊆ text := by
  unfold lines at member
  induction text generalizing line with
  | nil => simp_all [pieces]
  | cons c rest ih =>
    unfold pieces at member
    split at member
    · rcases List.mem_cons.mp member with rfl | later
      · exact List.nil_subset _
      · exact List.subset_cons_of_subset c (ih later)
    · obtain ⟨first, others, cut⟩ := List.exists_cons_of_ne_nil (pieces_ne_nil '\n' rest)
      rw [cut] at member ih
      rcases List.mem_cons.mp member with rfl | later
      · exact List.cons_subset_cons c (ih List.mem_cons_self)
      · exact List.subset_cons_of_subset c (ih (List.mem_cons_of_mem _ later))

/-- Lines that contain no line feed are the lines of the text they make. -/
theorem lines_unlines {parts : List (List Char)} (noBreak : ∀ part ∈ parts, '\n' ∉ part)
    (nonempty : parts ≠ []) : lines (unlines parts) = parts := by
  rw [lines, pieces_eq_splitOn]
  exact List.splitOn_intercalate '\n' noBreak nonempty

/-- The lines of a text make the text. -/
theorem unlines_lines (text : List Char) : unlines (lines text) = text := by
  rw [unlines, lines, pieces_eq_splitOn]
  exact List.intercalate_splitOn '\n'

/-- A character at the end of a text stands at the end of its last line. -/
theorem exists_lines_concat {c : Char} (other : c ≠ '\n') (text : List Char) :
    ∃ front last, lines text = front ++ [last] ∧ lines (text ++ [c]) = front ++ [last ++ [c]] := by
  unfold lines
  induction text with
  | nil => exact ⟨[], [], rfl, by simp [pieces, other]⟩
  | cons d rest ih =>
    obtain ⟨front, last, before, after⟩ := ih
    by_cases lineFeed : d = '\n'
    · exact ⟨[] :: front, last, by simp [pieces, lineFeed, before],
        by simp [pieces, lineFeed, after]⟩
    · cases front with
      | nil => exact ⟨[], d :: last, by simp [pieces, lineFeed, before],
          by simp [pieces, lineFeed, after]⟩
      | cons first others => exact ⟨(d :: first) :: others, last,
          by simp [pieces, lineFeed, before], by simp [pieces, lineFeed, after]⟩

/-- The lines of a log, by the pieces of its text. -/
theorem endedLines_concat (front : List (List Char)) (last : List Char) :
    endedLines (front ++ [last]) =
      front.map dropCarriageReturn ++ if last.isEmpty then [] else [last] := by
  induction front with
  | nil => rfl
  | cons line rest ih =>
    obtain ⟨first, others, more⟩ : ∃ first others, rest ++ [last] = first :: others :=
      List.exists_cons_of_ne_nil (by simp)
    rw [List.cons_append, more]
    show dropCarriageReturn line :: endedLines (first :: others) = _
    rw [← more, ih]
    rfl

/-- No lines at all make the empty text, which counts as one line. -/
theorem lineCount_unlines {parts : List (List Char)} (noBreak : ∀ part ∈ parts, '\n' ∉ part) :
    lineCount (unlines parts) = max parts.length 1 := by
  rcases parts with _ | ⟨first, others⟩
  · rfl
  · rw [lineCount, lines_unlines noBreak (List.cons_ne_nil first others), List.length_cons]
    omega

theorem lineCount_eq_count (text : List Char) : lineCount text = text.count '\n' + 1 := by
  unfold lineCount lines
  induction text with
  | nil => rfl
  | cons c rest ih =>
    unfold pieces
    split
    · rename_i same
      rw [List.length_cons, ih, same, List.count_cons_self]
    · rename_i different
      rw [List.length_modifyHead, ih, List.count_cons_of_ne different]

/-- A text that is not blank has fewer line feeds than characters. -/
theorem lineCount_le_length {text : List Char} (visible : isAllBlank text = false) :
    lineCount text ≤ text.length := by
  obtain ⟨c, member, shown⟩ := List.all_eq_false.mp visible
  have notBreak : c ≠ '\n' := by
    rintro rfl
    exact shown (by decide)
  rw [lineCount_eq_count]
  refine Nat.lt_of_le_of_ne List.count_le_length ?_
  intro full
  exact notBreak ((List.count_eq_length.mp full) c member).symm

theorem length_le_utf8ByteSize (text : List Char) :
    text.length ≤ (String.ofList text).utf8ByteSize := by
  induction text with
  | nil => exact Nat.zero_le _
  | cons c rest ih =>
    have positive := c.utf8Size_pos
    rw [String.ofList_cons, String.utf8ByteSize_append, String.utf8ByteSize_singleton,
      List.length_cons]
    omega

theorem utf8ByteSize_le (text : List Char) :
    (String.ofList text).utf8ByteSize ≤ 4 * text.length := by
  induction text with
  | nil => exact Nat.le_refl 0
  | cons c rest ih =>
    have size := c.utf8Size_le_four
    rw [String.ofList_cons, String.utf8ByteSize_append, String.utf8ByteSize_singleton,
      List.length_cons]
    omega

/-! ## Lines in front of a text -/

/-- Lines that are all ended by a line feed. -/
def terminated (parts : List (List Char)) : List Char :=
  parts.flatMap (· ++ ['\n'])

theorem terminated_cons (part : List Char) (parts : List (List Char)) :
    terminated (part :: parts) = part ++ '\n' :: terminated parts := by
  rw [terminated, List.flatMap_cons, List.append_assoc]
  rfl

theorem terminated_append (front back : List (List Char)) :
    terminated (front ++ back) = terminated front ++ terminated back :=
  List.flatMap_append

/-- An empty last line ends the line before it. -/
theorem unlines_concat_nil (parts : List (List Char)) :
    unlines (parts ++ [[]]) = terminated parts := by
  induction parts with
  | nil => rfl
  | cons part rest ih =>
    have more : rest ++ [[]] ≠ [] := List.append_ne_nil_of_right_ne_nil _ (List.cons_ne_nil _ _)
    rw [terminated_cons, ← ih, List.cons_append, unlines, join,
      List.intercalate_cons_of_ne_nil more, List.append_assoc]
    rfl

theorem unlines_append_break {parts : List (List Char)} (nonempty : parts ≠ []) :
    unlines parts ++ ['\n'] = terminated parts := by
  induction parts with
  | nil => exact absurd rfl nonempty
  | cons part rest ih =>
    rw [terminated_cons]
    rcases rest with _ | ⟨next, others⟩
    · rw [unlines, join, List.intercalate_singleton]
      rfl
    · rw [← ih (List.cons_ne_nil next others), unlines, join, List.intercalate_cons_cons,
        List.append_assoc, List.append_assoc]
      rfl

theorem lines_terminated_append {parts : List (List Char)} (noBreak : ∀ part ∈ parts, '\n' ∉ part)
    (text : List Char) : lines (terminated parts ++ text) = parts ++ lines text := by
  induction parts with
  | nil => rfl
  | cons part rest ih =>
    have here : lines part = [part] := by
      have single : ∀ only ∈ [part], '\n' ∉ only := fun only member =>
        List.mem_singleton.mp member ▸ noBreak part List.mem_cons_self
      rw [← lines_unlines single (List.cons_ne_nil part []), unlines, join,
        List.intercalate_singleton]
    have later := ih fun other member => noBreak other (List.mem_cons_of_mem _ member)
    rw [terminated_cons, List.append_assoc, List.cons_append, lines_append, here, later]
    rfl

theorem length_terminated_le {parts : List (List Char)} {bound : Nat}
    (short : ∀ part ∈ parts, part.length ≤ bound) :
    (terminated parts).length ≤ parts.length * (bound + 1) := by
  induction parts with
  | nil => exact Nat.zero_le _
  | cons part rest ih =>
    have here := short part List.mem_cons_self
    have later := ih fun other member => short other (List.mem_cons_of_mem _ member)
    rw [terminated_cons, List.length_append, List.length_cons, List.length_cons, Nat.succ_mul]
    omega

theorem count_terminated {parts : List (List Char)} (noBreak : ∀ part ∈ parts, '\n' ∉ part) :
    (terminated parts).count '\n' = parts.length := by
  induction parts with
  | nil => rfl
  | cons part rest ih =>
    have later := ih fun other member => noBreak other (List.mem_cons_of_mem _ member)
    rw [terminated_cons, List.count_append, List.count_cons_self, later,
      List.count_eq_zero.mpr (noBreak part List.mem_cons_self), List.length_cons, Nat.zero_add]

end Multipass.Text
