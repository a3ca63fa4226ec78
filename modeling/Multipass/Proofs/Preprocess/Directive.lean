import Multipass.Preprocess.Directive
import Multipass.Proofs.Fallible
import Multipass.Proofs.Text.Characters

/-!
# Keyword and argument of a directive

The joined text of a directive falls apart into its keyword, which alone decides the
kind of the directive, and its argument. Joining the lines of a directive makes up
blanks only.
-/

namespace Multipass.Preprocess

/-- What can be wrong with a definition. -/
theorem parseDefinition_error_cases {rest : List Char} {line : Nat} {problem : Problem}
    (failed : parseDefinition rest line = .error problem) :
    problem = .defineWithoutName ∨ (∃ name, problem = .unterminatedParameters name) ∨
      ∃ parameter name, problem = .invalidParameter parameter name := by
  unfold parseDefinition at failed
  split at failed
  · cases failed
    exact .inl rfl
  · rename_i name _ _
    split at failed
    · cases failed
      exact .inr (.inl ⟨name, rfl⟩)
    · rcases bind_eq_error_iff.mp failed with parameters | ⟨_, -, failed⟩
      · unfold parseParameters at parameters
        split at parameters
        · cases parameters
        · obtain ⟨piece, -, fails⟩ := exists_of_mapM_eq_error parameters
          simp only at fails
          split at fails
          · cases fails
          · cases fails
            exact .inr (.inr ⟨Text.trim piece, name, rfl⟩)
      · cases failed
  · cases failed

end Multipass.Preprocess

namespace Multipass.Preprocess.Directive

/-- The text of a directive from its keyword on. -/
def body (text : List Char) : List Char :=
  Text.trimStart (text.dropWhile (· == '#'))

/-- The letters that a directive's body begins with. -/
def keyword (text : List Char) : List Char :=
  (body text).takeWhile Char.isAlpha

/-- The text after the keyword, without comments. -/
def argument (text : List Char) : List Char :=
  Text.trim (Comment.strip ((body text).dropWhile Char.isAlpha))

/-- The directive with a given keyword and argument. -/
def ofKeyword (keyword : String) (rest : List Char) : Directive :=
  match keyword with
  | "" => .nothing
  | "define" => .define rest
  | "undef" => .undefine rest
  | "ifdef" => .openNamed .ifDefined true rest
  | "ifndef" => .openNamed .ifNotDefined false rest
  | "if" => .openCondition rest
  | "elif" => .orCondition rest
  | "else" => .otherwise
  | "endif" => .close
  | "error" => .announce rest
  | _ => .foreign

theorem ofText_eq (text : List Char) :
    ofText text = ofKeyword (String.ofList (keyword text)) (argument text) := rfl

/-- Whether a directive belongs to the compiler hangs on its keyword alone. -/
theorem ofKeyword_foreign_iff (keyword : String) (rest rest' : List Char) :
    ofKeyword keyword rest = .foreign ↔ ofKeyword keyword rest' = .foreign := by
  unfold ofKeyword
  split <;> simp

theorem eq_argument_of_define {text rest : List Char} (read : ofText text = .define rest) :
    rest = argument text := by
  rw [ofText_eq] at read
  unfold ofKeyword at read
  split at read <;> simp_all

theorem mem_argument {text : List Char} {c : Char} (member : c ∈ argument text) :
    c = ' ' ∨ c ∈ text := by
  rcases Comment.mem_strip (Text.trim_subset _ member) with blank | inBody
  · exact .inl blank
  · have inTrimmed := (List.dropWhile_sublist _).subset inBody
    exact .inr ((List.dropWhile_sublist _).subset (Text.trimStart_subset _ inTrimmed))

theorem mem_joinContinuations {text : List Char} {following : List (List Char)} {c : Char}
    (member : c ∈ (joinContinuations text following).1) :
    c = ' ' ∨ c ∈ text ∨ ∃ line ∈ following, c ∈ line := by
  induction following generalizing text with
  | nil => exact .inr (.inl member)
  | cons next rest ih =>
    unfold joinContinuations at member
    split at member
    · rcases ih member with blank | inJoined | ⟨line, later, inLine⟩
      · exact .inl blank
      · rcases List.mem_append.mp inJoined with inText | inNext
        · exact .inr (.inl ((List.dropLast_sublist text).subset inText))
        · rcases List.mem_cons.mp inNext with blank | inNext
          · exact .inl blank
          · exact .inr (.inr ⟨next, List.mem_cons_self, Text.trim_subset next inNext⟩)
      · exact .inr (.inr ⟨line, List.mem_cons_of_mem _ later, inLine⟩)
    · exact .inr (.inl member)

theorem notMem_body_of_parseDefinition {rest name : List Char} {line : Nat}
    {definition : Macro.Definition} {c : Char} (absent : c ∉ rest)
    (parsed : parseDefinition rest line = .ok (name, definition)) : c ∉ definition.body := by
  unfold parseDefinition at parsed
  split at parsed
  · simp at parsed
  · rename_i found
    have afterName := Text.leadingName?_subset found
    split at parsed
    · simp at parsed
    · rename_i list body cut
      have afterList := (Text.breakAt?_subset cut).2
      obtain ⟨parameters, -, parsed⟩ := bind_eq_ok_iff.mp parsed
      simp only [pure, Except.pure, Except.ok.injEq, Prod.mk.injEq] at parsed
      rw [← parsed.2]
      intro member
      have inBody := afterList (Text.trim_subset body member)
      exact absent (afterName (List.mem_cons_of_mem _ inBody))
  · rename_i found
    simp only [Except.ok.injEq, Prod.mk.injEq] at parsed
    rw [← parsed.2]
    intro member
    exact absent (Text.leadingName?_subset found (Text.trim_subset _ member))

end Multipass.Preprocess.Directive
