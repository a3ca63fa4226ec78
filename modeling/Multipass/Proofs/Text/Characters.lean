import Mathlib.Data.List.Basic
import Multipass.Comment
import Multipass.Proofs.Text.Search
import Multipass.Text.Blank
import Multipass.Text.Lexeme

/-!
# Characters of parts

Trimming, cutting into lexemes and cutting at comments give parts of a text: they
have no character that the text does not have. Stripping comments adds blanks only.
-/

namespace Multipass

namespace Text

theorem dropTrailing_subset (p : Char → Bool) (text : List Char) :
    dropTrailing p text ⊆ text := by
  intro c member
  exact List.mem_reverse.mp ((List.dropWhile_sublist p).subset (List.mem_reverse.mp member))

theorem trimStart_subset (text : List Char) : trimStart text ⊆ text :=
  (List.dropWhile_sublist isBlank).subset

theorem trim_subset (text : List Char) : trim text ⊆ text :=
  List.Subset.trans (dropTrailing_subset isBlank _) (trimStart_subset text)

theorem leadingLexeme_subset (c : Char) (rest : List Char) :
    (leadingLexeme c rest).1.text ⊆ c :: rest ∧ (leadingLexeme c rest).2 ⊆ c :: rest := by
  rw [← leadingLexeme_append c rest]
  exact ⟨List.subset_append_left _ _, List.subset_append_right _ _⟩

theorem leadingName?_subset {text name rest : List Char}
    (found : leadingName? text = some (name, rest)) : rest ⊆ text := by
  cases text with
  | nil => simp [leadingName?] at found
  | cons c text =>
    simp only [leadingName?, Option.ite_none_right_eq_some, Option.some.injEq,
      Prod.mk.injEq] at found
    rw [← found.2.2]
    exact List.Subset.trans (List.dropWhile_sublist _).subset (List.subset_cons_self c text)

end Text

namespace Comment

/-- The text of a segment. -/
def Segment.text : Segment → List Char
  | .code text | .comment text => text

/-- The two characters that open a comment. -/
def Opening.spelling : Opening → List Char
  | .line => ['/', '/']
  | .block => ['/', '*']

/-- What a search for a comment gives, put together again. -/
def rejoin : List Char × Option (Opening × List Char) → List Char
  | (front, none) => front
  | (front, some (opening, rest)) => front ++ opening.spelling ++ rest

theorem rejoin_splitAtOpening (text : List Char) : rejoin (splitAtOpening text) = text := by
  fun_induction splitAtOpening text with
  | case1 rest => rfl
  | case2 rest => rfl
  | case3 c text _ _ front found cut ih =>
    rw [cut] at ih
    cases found with
    | none => exact congrArg (c :: ·) ih
    | some comment => exact congrArg (c :: ·) ih
  | case4 => rfl

theorem splitAtOpening_subset {text front : List Char}
    {found : Option (Opening × List Char)} (split : splitAtOpening text = (front, found)) :
    front ⊆ text ∧ ∀ comment ∈ found, comment.2 ⊆ text := by
  have whole := rejoin_splitAtOpening text
  rw [split] at whole
  rw [← whole]
  cases found with
  | none => simp [rejoin]
  | some comment =>
    constructor
    · intro c member
      simp [rejoin, member]
    · rintro _ ⟨rfl⟩
      exact List.subset_append_right _ _

theorem splitAtClosing?_subset {text front rest : List Char}
    (found : splitAtClosing? text = some (front, rest)) : rest ⊆ text :=
  (Text.breakAt?_subset found).2

/-- Stripping comments leaves characters of the text, and a blank for each block
    comment. -/
theorem mem_strip {text : List Char} {c : Char} (member : c ∈ strip text) :
    c = ' ' ∨ c ∈ text := by
  fun_induction strip text with
  | case1 text code split => exact .inr ((splitAtOpening_subset split).1 member)
  | case2 text code body split => exact .inr ((splitAtOpening_subset split).1 member)
  | case3 text code body split closing =>
    rcases List.mem_append.mp member with inCode | blank
    · exact .inr ((splitAtOpening_subset split).1 inCode)
    · exact .inl (List.mem_singleton.mp blank)
  | case4 text code body split front rest closing _ ih =>
    rcases List.mem_append.mp member with inCode | later
    · exact .inr ((splitAtOpening_subset split).1 inCode)
    · rcases List.mem_cons.mp later with blank | inRest
      · exact .inl blank
      · have inBody := splitAtClosing?_subset closing
        have inText := (splitAtOpening_subset split).2 _ rfl
        exact (ih inRest).imp_right fun here => inText (inBody here)

/-- The segments of a line, put together, are the line. -/
theorem flatMap_segments (inside : Bool) (line : List Char) :
    (segments inside line).1.flatMap Segment.text = line := by
  fun_induction segments inside line with
  | case1 line found => simp [Segment.text]
  | case2 line body rest found _ later state cut ih =>
    rw [cut] at ih
    rw [List.flatMap_cons, ih]
    exact (Text.eq_append_of_breakAt? found).symm
  | case3 inside line _ code found =>
    have whole := rejoin_splitAtOpening line
    rw [found] at whole
    simpa [Segment.text, rejoin] using whole
  | case4 inside line _ code body found =>
    have whole := rejoin_splitAtOpening line
    rw [found] at whole
    simpa [Segment.text, rejoin, Opening.spelling] using whole
  | case5 inside line _ code rest found _ later state cut ih =>
    have whole := rejoin_splitAtOpening line
    rw [found] at whole
    rw [cut] at ih
    rw [List.flatMap_cons, List.flatMap_cons, ih, ← List.append_assoc]
    exact whole

/-- A segment of a line is made of characters of the line. -/
theorem text_subset_of_mem_segments {inside : Bool} {line : List Char} {segment : Segment}
    (member : segment ∈ (segments inside line).1) : segment.text ⊆ line := by
  intro c inSegment
  rw [← flatMap_segments inside line]
  exact List.mem_flatMap.mpr ⟨segment, member, inSegment⟩

end Comment

end Multipass
