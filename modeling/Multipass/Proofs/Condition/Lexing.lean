import Mathlib.Data.List.Nodup
import Multipass.Proofs.Condition.Literal
import Multipass.Proofs.Fallible
import Multipass.Proofs.Text.Names

/-!
# The tokens of a condition, by rules

`Lexes` says which tokens a text has: literals and names that go on as long as they can,
the longest operators that fit, parentheses, and blanks that count for nothing. The reader
of tokens accepts the texts that have tokens by these rules, and gives those.
-/

namespace Multipass.Condition

/-- No operator that a text begins with is longer than this one. -/
def IsLongest (op : Operator) (text : List Char) : Prop :=
  ∀ other : Operator, other.spelling.toList <+: text →
    other.spelling.toList.length ≤ op.spelling.toList.length

/-- The tokens of a condition. A number and a name go as far as they can, and an operator is
    the longest one that is spelled there. -/
inductive Lexes : List Char → List Token → Prop where
  | done : Lexes [] []
  | blank {c : Char} {rest : List Char} {tokens : List Token} :
      Text.isAsciiBlank c = true → Lexes rest tokens → Lexes (c :: rest) tokens
  | number {literal rest : List Char} {value : Nat} {tokens : List Token} :
      IsLiteral literal value → value < 2 ^ 63 → (∀ c ∈ rest.head?, c.isAlphanum = false) →
      Lexes rest tokens → Lexes (literal ++ rest) (.number (.ofNat value) :: tokens)
  | name {c : Char} {name rest : List Char} {tokens : List Token} :
      Text.isNameStart c = true → (∀ d ∈ name, Text.isNameChar d = true) →
      (∀ d ∈ rest.head?, Text.isNameChar d = false) → Lexes rest tokens →
      Lexes (c :: name ++ rest) (.name :: tokens)
  | opening {rest : List Char} {tokens : List Token} :
      Lexes rest tokens → Lexes ('(' :: rest) (.opening :: tokens)
  | closing {rest : List Char} {tokens : List Token} :
      Lexes rest tokens → Lexes (')' :: rest) (.closing :: tokens)
  | operator {op : Operator} {rest : List Char} {tokens : List Token} :
      IsLongest op (op.spelling.toList ++ rest) → Lexes rest tokens →
      Lexes (op.spelling.toList ++ rest) (.operator op :: tokens)

/-! ## Operators -/

theorem mem_operators (op : Operator) : op ∈ operators := by
  cases op with
  | binary op => cases op <;> decide
  | not => decide
  | complement => decide

theorem operators_descending :
    operators.Pairwise fun first second =>
      second.spelling.toList.length ≤ first.spelling.toList.length := by
  decide

theorem spelling_injective {first second : Operator}
    (same : first.spelling.toList = second.spelling.toList) : first = second := by
  have distinct : (operators.map fun op => op.spelling.toList).Nodup := by decide
  exact List.inj_on_of_nodup_map distinct (mem_operators first) (mem_operators second) same

/-- One attempt of the search for an operator. -/
theorem after?_spelling_eq_some_iff {text rest : List Char} {candidate op : Operator} :
    (Text.after? candidate.spelling.toList text).map (candidate, ·) = some (op, rest) ↔
      candidate = op ∧ text = op.spelling.toList ++ rest := by
  rw [Option.map_eq_some_iff]
  constructor
  · rintro ⟨after, begins, same⟩
    cases same
    exact ⟨rfl, Text.after?_eq_some_iff.mp begins⟩
  · rintro ⟨rfl, begins⟩
    exact ⟨rest, Text.after?_eq_some_iff.mpr begins, rfl⟩

theorem isLongest_of_leadingOperator? {text rest : List Char} {op : Operator}
    (found : leadingOperator? text = some (op, rest)) :
    text = op.spelling.toList ++ rest ∧ IsLongest op text := by
  obtain ⟨before, first, behind, all, here, notBefore⟩ := List.findSome?_eq_some_iff.mp found
  obtain ⟨rfl, begins⟩ := after?_spelling_eq_some_iff.mp here
  refine ⟨begins, ?_⟩
  rintro other ⟨after, fits⟩
  have order := operators_descending
  have tried := mem_operators other
  rw [all] at order tried
  rcases List.mem_append.mp tried with earlier | later
  · have refused := notBefore other earlier
    rw [after?_spelling_eq_some_iff.mpr ⟨rfl, fits.symm⟩] at refused
    cases refused
  · rcases List.mem_cons.mp later with rfl | later
    · exact Nat.le_refl _
    · exact (List.pairwise_cons.mp (List.pairwise_append.mp order).2.1).1 other later

/-- The search for an operator finds the longest that fits. -/
theorem leadingOperator?_of_isLongest {text rest : List Char} {op : Operator}
    (begins : text = op.spelling.toList ++ rest) (longest : IsLongest op text) :
    leadingOperator? text = some (op, rest) := by
  cases found : leadingOperator? text with
  | none =>
    have refused := List.findSome?_eq_none_iff.mp found op (mem_operators op)
    rw [after?_spelling_eq_some_iff.mpr ⟨rfl, begins⟩] at refused
    cases refused
  | some taken =>
    obtain ⟨other, after⟩ := taken
    obtain ⟨fits, longestOther⟩ := isLongest_of_leadingOperator? found
    have size := Nat.le_antisymm (longestOther op ⟨rest, begins.symm⟩)
      (longest other ⟨after, fits.symm⟩)
    obtain ⟨same, rfl⟩ := List.append_inj (begins.symm.trans fits) size
    rw [spelling_injective same]

/-! ## Reading tokens -/

theorem lexes_of_tokenize {text : List Char} {tokens : List Token}
    (read : tokenize text = .ok tokens) : Lexes text tokens := by
  fun_induction tokenize text generalizing tokens with
  | case1 =>
    cases read
    exact .done
  | case2 c rest blank ih => exact .blank blank (ih read)
  | case3 c rest _ _ literal => cases read
  | case4 c rest _ digit literal value valid =>
    rename_i ih
    obtain ⟨later, goesOn, rfl⟩ := map_eq_ok_iff.mp read
    obtain ⟨magnitude, isLiteral, bound, rfl⟩ := literalValue?_eq_some_iff.mp valid
    have alphanumeric : c.isAlphanum = true := by
      rw [Char.isAlphanum, digit, Bool.or_true]
    have whole := List.takeWhile_append_dropWhile (p := Char.isAlphanum) (l := c :: rest)
    rw [List.dropWhile_cons_of_pos alphanumeric] at whole
    rw [← whole]
    exact .number isLiteral bound (Text.boundary_dropWhile _ rest) (ih goesOn)
  | case5 c rest _ _ start ih =>
    obtain ⟨later, goesOn, rfl⟩ := map_eq_ok_iff.mp read
    rw [← List.takeWhile_append_dropWhile (p := Text.isNameChar) (l := rest), ← List.cons_append]
    exact .name start (List.all_eq_true.mp List.all_takeWhile) (Text.boundary_dropWhile _ rest)
      (ih goesOn)
  | case6 rest _ _ _ ih =>
    obtain ⟨later, goesOn, rfl⟩ := map_eq_ok_iff.mp read
    exact .opening (ih goesOn)
  | case7 rest _ _ _ _ ih =>
    obtain ⟨later, goesOn, rfl⟩ := map_eq_ok_iff.mp read
    exact .closing (ih goesOn)
  | case8 c rest _ _ _ _ _ unknown => cases read
  | case9 c rest _ _ _ _ _ op after found _ ih =>
    obtain ⟨later, goesOn, rfl⟩ := map_eq_ok_iff.mp read
    obtain ⟨begins, longest⟩ := isLongest_of_leadingOperator? found
    rw [begins] at longest ⊢
    exact .operator longest (ih goesOn)

theorem not_isAsciiBlank {c : Char} (visible : c.isAlphanum = true ∨ c = '_') :
    ¬ Text.isAsciiBlank c = true := by
  unfold Text.isAsciiBlank
  rintro blank
  simp only [Bool.or_eq_true, beq_iff_eq] at blank
  rcases blank with (((rfl | rfl) | rfl) | rfl) | rfl <;> revert visible <;> decide

/-- An operator begins with none of the characters that other tokens begin with. -/
theorem head_spelling (op : Operator) :
    ∃ c rest, op.spelling.toList = c :: rest ∧ Text.isAsciiBlank c = false ∧ c.isDigit = false ∧
      Text.isNameStart c = false ∧ c ≠ '(' ∧ c ≠ ')' := by
  have apart : ∀ op ∈ operators, (op.spelling.toList.head?.all fun c => !Text.isAsciiBlank c &&
      !c.isDigit && !Text.isNameStart c && c != '(' && c != ')') = true := by decide
  obtain ⟨c, rest, spelled⟩ := List.exists_cons_of_ne_nil op.spelling_ne_nil
  refine ⟨c, rest, spelled, ?_⟩
  have first := apart op (mem_operators op)
  rw [spelled] at first
  simpa [and_assoc] using first

theorem tokenize_of_lexes {text : List Char} {tokens : List Token}
    (lexes : Lexes text tokens) : tokenize text = .ok tokens := by
  induction lexes with
  | done => rw [tokenize]
  | blank blank _ ih => rw [tokenize, if_pos blank, ih]
  | @number literal rest value tokens isLiteral bound boundary _ ih =>
    have taken := Text.takeWhile_append_of_boundary isLiteral.isAlphanum boundary
    have left := Text.dropWhile_append_of_boundary isLiteral.isAlphanum boundary
    have valid := literalValue?_of_isLiteral isLiteral bound
    obtain ⟨c, later, rfl, digit⟩ := isLiteral.exists_cons
    have alphanumeric := isLiteral.isAlphanum c List.mem_cons_self
    rw [List.cons_append] at taken left ⊢
    rw [List.dropWhile_cons_of_pos alphanumeric] at left
    rw [tokenize, if_neg (not_isAsciiBlank (.inl alphanumeric)), if_pos digit]
    simp only [taken, valid, left, ih]
    rfl
  | @name c name rest tokens start inside boundary _ ih =>
    have visible : ¬ Text.isAsciiBlank c = true := by
      refine not_isAsciiBlank (((Bool.or_eq_true _ _).mp start).imp ?_ beq_iff_eq.mp)
      intro letter
      rw [Char.isAlphanum, letter, Bool.true_or]
    rw [List.cons_append, tokenize, if_neg visible, if_neg (Text.not_isDigit_of_isNameStart start),
      if_pos start, Text.dropWhile_append_of_boundary inside boundary, ih]
    rfl
  | opening _ ih =>
    rw [tokenize, if_neg (by decide), if_neg (by decide), if_neg (by decide), if_pos rfl, ih]
    rfl
  | closing _ ih =>
    rw [tokenize, if_neg (by decide), if_neg (by decide), if_neg (by decide), if_neg (by decide),
      if_pos rfl, ih]
    rfl
  | @operator op rest tokens longest _ ih =>
    have found := leadingOperator?_of_isLongest rfl longest
    obtain ⟨c, later, spelled, visible, noDigit, noName, noOpening, noClosing⟩ := head_spelling op
    rw [spelled, List.cons_append] at found ⊢
    rw [tokenize, if_neg (by simp [visible]), if_neg (by simp [noDigit]), if_neg (by simp [noName]),
      if_neg noOpening, if_neg noClosing]
    split
    · rename_i unknown
      rw [found] at unknown
      cases unknown
    · rename_i same
      rw [found] at same
      cases same
      rw [ih]
      rfl

/-- The reader of tokens accepts the texts that have tokens, and gives those. -/
theorem tokenize_eq_ok_iff {text : List Char} {tokens : List Token} :
    tokenize text = .ok tokens ↔ Lexes text tokens :=
  ⟨lexes_of_tokenize, tokenize_of_lexes⟩

end Multipass.Condition
