import Multipass.Proofs.Text.Names

/-!
# Where names stand

Whether a name is called is a matter of the text behind it. The places where names stand in a
text are read off lexeme by lexeme, and what follows a character that belongs to no name and no
number has the same places wherever it stands.
-/

namespace Multipass.Text

/-- The names in a text, each with the text after it. -/
def occurrences (text : List Char) : List (List Char × List Char) :=
  match text with
  | [] => []
  | c :: rest =>
    ((leadingLexeme c rest).1.name?.map (·, (leadingLexeme c rest).2)).toList ++
      occurrences (leadingLexeme c rest).2
  termination_by text.length
  decreasing_by exact Nat.lt_succ_of_le (leadingLexeme_length_le c rest)

section Occurrences

variable {c : Char} {rest back : List Char}

theorem map_fst_occurrences (text : List Char) : (occurrences text).map (·.1) = names text := by
  fun_induction occurrences text with
  | case1 => exact names_nil.symm
  | case2 c rest ih =>
    rw [List.map_append, ih, names_cons]
    cases (leadingLexeme c rest).1.name? <;> rfl

theorem occurrences_of_isDigit (digit : c.isDigit = true) (rest : List Char) :
    occurrences (c :: rest) = occurrences (rest.dropWhile isNumberChar) := by
  rw [occurrences, leadingLexeme, if_pos digit]
  rfl

theorem occurrences_of_isNameStart (start : isNameStart c = true) (rest : List Char) :
    occurrences (c :: rest) = (c :: rest.takeWhile isNameChar, rest.dropWhile isNameChar) ::
      occurrences (rest.dropWhile isNameChar) := by
  rw [occurrences, leadingLexeme, if_neg (not_isDigit_of_isNameStart start), if_pos start]
  rfl

theorem occurrences_of_gap (outside : isNameChar c = false) (rest : List Char) :
    occurrences (c :: rest) = occurrences rest := by
  have gapAt : ∀ {d : Char} (later : List Char), isNameChar d = false →
      occurrences (d :: later) = occurrences (later.dropWhile (!isNameChar ·)) := by
    intro d later outside
    rw [occurrences, leadingLexeme_of_gap outside]
    rfl
  rw [gapAt rest outside]
  cases rest with
  | nil => rfl
  | cons d later =>
    cases inName : isNameChar d with
    | true => rw [List.dropWhile_cons_of_neg (by simp [inName])]
    | false => rw [List.dropWhile_cons_of_pos (by simp [inName]), gapAt later inName]

/-- What follows a character that neither names nor numbers have is read as it stands. -/
theorem occurrences_suffix (outside : isNumberChar c = false) (front back : List Char) :
    occurrences back <:+ occurrences (front ++ c :: back) := by
  have notName := isNameChar_of_not_isNumberChar outside
  induction front using induction_on_names with
  | nil => simp [occurrences_of_gap notName]
  | number d rest digit ih =>
    rw [List.cons_append, occurrences_of_isDigit digit, dropWhile_append_cons outside]
    exact ih
  | name d rest start ih =>
    rw [List.cons_append, occurrences_of_isNameStart start, dropWhile_append_cons notName]
    exact ih.trans (List.suffix_cons _ _)
  | gap d rest gap ih =>
    rw [List.cons_append, occurrences_of_gap gap]
    exact ih

theorem occurrences_name_append (start : isNameStart c = true)
    (inside : ∀ d ∈ rest, isNameChar d = true) (boundary : ∀ d ∈ back.head?, isNameChar d = false) :
    occurrences (c :: rest ++ back) = (c :: rest, back) :: occurrences back := by
  rw [List.cons_append, occurrences_of_isNameStart start,
    takeWhile_append_of_boundary inside boundary, dropWhile_append_of_boundary inside boundary]

end Occurrences

end Multipass.Text
