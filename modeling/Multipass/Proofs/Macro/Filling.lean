import Multipass.Macro.Body
import Multipass.Proofs.Text.Characters
import Multipass.Proofs.Text.Names

/-!
# Bodies with their arguments

The body of a called macro is filled lexeme by lexeme: names that are parameters give way to
arguments and everything else stays. What stands on one side of a character that belongs to no
name and no number is filled by itself.
-/

namespace Multipass.Macro

theorem mem_of_argumentFor? {parameters arguments : List (List Char)} {name argument : List Char}
    (found : argumentFor? parameters arguments name = some argument) : argument ∈ arguments := by
  obtain ⟨before, after, split, -⟩ := List.lookup_eq_some_iff.mp found
  exact (List.of_mem_zip (a := name) (b := argument) (by rw [split]; simp)).2

theorem mem_text_lexeme {text : List Char} {lexeme : Text.Lexeme}
    (member : lexeme ∈ Text.lexemes text) : lexeme.text ⊆ text := by
  intro x inLexeme
  rw [← Text.flatMap_text_lexemes text]
  exact List.mem_flatMap.mpr ⟨lexeme, member, inLexeme⟩

/-- What stands for a lexeme of a body. -/
def fill (parameters arguments : List (List Char)) : Text.Lexeme → List Char
  | .name text => (argumentFor? parameters arguments text).getD text
  | lexeme => lexeme.text

/-- The body with arguments in place of parameters, before its parts are joined. -/
def filled (parameters arguments : List (List Char)) (body : List Char) : List Char :=
  (Text.lexemes body).flatMap (fill parameters arguments)

theorem substitute_eq (parameters arguments : List (List Char)) (body : List Char) :
    substitute parameters arguments body = paste (filled parameters arguments body) := rfl

section Filling

variable {parameters arguments : List (List Char)}

/-- A lexeme of a body stays, or it is a parameter and gives way to an argument. -/
theorem fill_cases (lexeme : Text.Lexeme) :
    fill parameters arguments lexeme = lexeme.text ∨
      (∃ name, lexeme = .name name) ∧ fill parameters arguments lexeme ∈ arguments := by
  cases lexeme with
  | number text | gap text => exact .inl rfl
  | name text =>
    rw [fill]
    cases given : argumentFor? parameters arguments text with
    | none => exact .inl rfl
    | some argument => exact .inr ⟨⟨text, rfl⟩, mem_of_argumentFor? given⟩

theorem filled_cons (c : Char) (rest : List Char) :
    filled parameters arguments (c :: rest) =
      fill parameters arguments (Text.leadingLexeme c rest).1 ++
        filled parameters arguments (Text.leadingLexeme c rest).2 := by
  rw [filled, Text.lexemes, List.flatMap_cons]
  rfl

theorem filled_nil : filled parameters arguments [] = [] := by
  rw [filled, Text.lexemes]
  rfl

theorem notMem_filled {c : Char} {body : List Char} (inBody : c ∉ body)
    (inArguments : ∀ argument ∈ arguments, c ∉ argument) :
    c ∉ filled parameters arguments body := by
  intro member
  obtain ⟨lexeme, ofBody, inPiece⟩ := List.mem_flatMap.mp member
  rcases fill_cases lexeme with stays | ⟨-, given⟩
  · rw [stays] at inPiece
    exact inBody (mem_text_lexeme ofBody inPiece)
  · exact inArguments _ given inPiece

/-! ## Character by character -/

theorem filled_of_isDigit {c : Char} (digit : c.isDigit = true) (rest : List Char) :
    filled parameters arguments (c :: rest) = c :: rest.takeWhile Text.isNumberChar ++
      filled parameters arguments (rest.dropWhile Text.isNumberChar) := by
  rw [filled_cons, Text.leadingLexeme, if_pos digit]
  rfl

theorem filled_of_isNameStart {c : Char} (start : Text.isNameStart c = true) (rest : List Char) :
    filled parameters arguments (c :: rest) =
      fill parameters arguments (.name (c :: rest.takeWhile Text.isNameChar)) ++
        filled parameters arguments (rest.dropWhile Text.isNameChar) := by
  rw [filled_cons, Text.leadingLexeme, if_neg (Text.not_isDigit_of_isNameStart start),
    if_pos start]

theorem filled_of_gap {c : Char} (outside : Text.isNameChar c = false) (rest : List Char) :
    filled parameters arguments (c :: rest) = c :: filled parameters arguments rest := by
  have gapAt : ∀ {d : Char} (later : List Char), Text.isNameChar d = false →
      filled parameters arguments (d :: later) = d :: later.takeWhile (!Text.isNameChar ·) ++
        filled parameters arguments (later.dropWhile (!Text.isNameChar ·)) := by
    intro d later outside
    rw [filled_cons, Text.leadingLexeme_of_gap outside]
    rfl
  rw [gapAt rest outside]
  cases rest with
  | nil => rfl
  | cons d later =>
    cases inName : Text.isNameChar d with
    | true =>
      rw [List.takeWhile_cons_of_neg (by simp [inName]), List.dropWhile_cons_of_neg (by simp [inName])]
      rfl
    | false =>
      rw [List.takeWhile_cons_of_pos (by simp [inName]), List.dropWhile_cons_of_pos (by simp [inName]),
        gapAt later inName]
      rfl

/-- No name and no number goes on over a joint. -/
theorem filled_append_cons {c : Char} (outside : Text.isNumberChar c = false)
    (front back : List Char) : filled parameters arguments (front ++ c :: back) =
      filled parameters arguments front ++ c :: filled parameters arguments back := by
  have noName : Text.isNameChar c = false := Text.isNameChar_of_not_isNumberChar outside
  induction front using Text.induction_on_names with
  | nil => rw [filled_nil, List.nil_append, filled_of_gap noName, List.nil_append]
  | number d rest digit ih =>
    rw [List.cons_append, filled_of_isDigit digit, filled_of_isDigit digit,
      Text.takeWhile_append_cons outside, Text.dropWhile_append_cons outside, ih, List.append_assoc]
  | name d rest start ih =>
    rw [List.cons_append, filled_of_isNameStart start, filled_of_isNameStart start,
      Text.takeWhile_append_cons noName, Text.dropWhile_append_cons noName, ih, List.append_assoc]
  | gap d rest gap ih =>
    rw [List.cons_append, filled_of_gap gap, filled_of_gap gap, ih, List.cons_append]

end Filling

end Multipass.Macro
