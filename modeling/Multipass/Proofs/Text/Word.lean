import Multipass.Proofs.Text.Names
import Multipass.Text.Word

/-!
# Blanks and words in front of a text

Reading blanks or a word takes off all of them. A blank is never part of a word, so blanks
end a word and a word ends blanks.
-/

namespace Multipass.Text

/-- A word that starts like an identifier. -/
def IsWord : List Char → Prop
  | [] => False
  | c :: rest => isNameStart c = true ∧ ∀ d ∈ rest, isWordChar d = true

/-- Do two classes of characters have no character in common? -/
def CharRanges.apart (left right : CharRanges) : Bool :=
  left.all fun (first, last) => right.all fun (first', last') =>
    Nat.blt last' first || Nat.blt last first'

theorem CharRanges.covers_of_apart {left right : CharRanges} (apart : left.apart right = true)
    {c : Char} (covered : left.covers c = true) : right.covers c = false := by
  refine List.any_eq_false.mpr fun (first', last') inRight inside' => ?_
  obtain ⟨⟨first, last⟩, inLeft, inside⟩ := List.any_eq_true.mp covered
  have beside := List.all_eq_true.mp (List.all_eq_true.mp apart _ inLeft) _ inRight
  simp only [Bool.and_eq_true, Bool.or_eq_true, decide_eq_true_eq, Nat.blt_eq] at inside inside' beside
  omega

/-- The blanks as ranges of code points. -/
def blankRanges : CharRanges :=
  [(9, 13), (0x20, 0x20), (0x85, 0x85), (0xA0, 0xA0), (0x1680, 0x1680), (0x2000, 0x200A),
    (0x2028, 0x2029), (0x202F, 0x202F), (0x205F, 0x205F), (0x3000, 0x3000)]

section Characters

variable {c : Char}

theorem covers_blankRanges (blank : isBlank c = true) : blankRanges.covers c = true := by
  simp only [isBlank, Bool.or_eq_true, Bool.and_eq_true, decide_eq_true_eq, beq_iff_eq] at blank
  simp only [CharRanges.covers, blankRanges, List.any_cons, List.any_nil, Bool.or_eq_true,
    Bool.and_eq_true, decide_eq_true_eq, Bool.false_eq_true, or_false]
  omega

theorem isWordChar_of_isBlank (blank : isBlank c = true) : isWordChar c = false := by
  have apart : blankRanges.apart wordRanges = true := by decide +kernel
  have uncovered := CharRanges.covers_of_apart apart (covers_blankRanges blank)
  have unnamed : (c.isAlphanum || c == '_') = false := isNameChar_of_isBlank blank
  rw [isWordChar, unnamed, uncovered, Bool.and_false, Bool.or_false]

theorem isWordChar_of_isNameStart (start : isNameStart c = true) : isWordChar c = true := by
  rcases (Bool.or_eq_true _ _).mp start with letter | underscore
  · simp [isWordChar, Char.isAlphanum, letter]
  · simp [isWordChar, underscore]

theorem isBlank_of_isWordChar (inWord : isWordChar c = true) : isBlank c = false := by
  refine Bool.eq_false_iff.mpr fun blank => ?_
  rw [isWordChar_of_isBlank blank] at inWord
  exact Bool.false_ne_true inWord

end Characters

/-- That a word has no blanks is seen by looking at each of its characters. -/
theorem visible_of_all {word : List Char} (shown : word.all (!isBlank ·) = true) :
    ∀ c ∈ word, isBlank c = false := by
  intro c member
  simpa using List.all_eq_true.mp shown c member

theorem IsWord.isWordChar {word : List Char} (isWord : IsWord word) :
    ∀ c ∈ word, isWordChar c = true := by
  cases word with
  | nil => exact isWord.elim
  | cons first rest =>
    intro c member
    rcases List.mem_cons.mp member with rfl | later
    · exact isWordChar_of_isNameStart isWord.1
    · exact isWord.2 c later

theorem IsWord.head_not_blank {word rest : List Char} (isWord : IsWord word) :
    ∀ c ∈ (word ++ rest).head?, isBlank c = false := by
  cases word with
  | nil => exact isWord.elim
  | cons first others =>
    rintro c ⟨⟩
    exact isBlank_of_isWordChar (isWord.isWordChar first List.mem_cons_self)

section Readers

variable {text rest : List Char}

theorem trimStart_eq_iff :
    trimStart text = rest ↔
      ∃ blanks, isAllBlank blanks = true ∧ text = blanks ++ rest ∧
        ∀ c ∈ rest.head?, isBlank c = false := by
  constructor
  · rintro rfl
    refine ⟨text.takeWhile isBlank, ?_, List.takeWhile_append_dropWhile.symm,
      boundary_dropWhile isBlank text⟩
    exact List.all_eq_true.mpr fun c member => List.mem_takeWhile_imp member
  · rintro ⟨blanks, blank, rfl, boundary⟩
    exact dropWhile_append_of_boundary (List.all_eq_true.mp blank) boundary

theorem afterBlanks?_eq_some_iff :
    afterBlanks? text = some rest ↔
      ∃ blanks, blanks ≠ [] ∧ isAllBlank blanks = true ∧ text = blanks ++ rest ∧
        ∀ c ∈ rest.head?, isBlank c = false := by
  unfold afterBlanks?
  rw [Option.ite_none_right_eq_some, Option.some.injEq, trimStart_eq_iff]
  constructor
  · rintro ⟨begins, blanks, blank, rfl, boundary⟩
    refine ⟨blanks, ?_, blank, rfl, boundary⟩
    rintro rfl
    obtain ⟨c, head, isBlank⟩ := (Option.any_eq_true _ _).mp begins
    rw [boundary c head] at isBlank
    exact Bool.false_ne_true isBlank
  · rintro ⟨blanks, some, blank, rfl, boundary⟩
    refine ⟨?_, blanks, blank, rfl, boundary⟩
    obtain ⟨first, others, rfl⟩ := List.exists_cons_of_ne_nil some
    exact List.all_eq_true.mp blank first List.mem_cons_self

theorem leadingWord?_eq_some_iff {word : List Char} :
    leadingWord? text = some (word, rest) ↔
      text = word ++ rest ∧ IsWord word ∧ ∀ c ∈ rest.head?, isWordChar c = false := by
  constructor
  · intro found
    cases text with
    | nil => cases found
    | cons first others =>
      obtain ⟨start, same⟩ := Option.ite_none_right_eq_some.mp found
      cases same
      refine ⟨?_, ⟨start, fun d member => List.mem_takeWhile_imp member⟩,
        boundary_dropWhile isWordChar others⟩
      rw [List.cons_append, List.takeWhile_append_dropWhile]
  · rintro ⟨rfl, isWord, boundary⟩
    cases word with
    | nil => exact isWord.elim
    | cons first others =>
      rw [List.cons_append, leadingWord?, if_pos isWord.1,
        takeWhile_append_of_boundary isWord.2 boundary,
        dropWhile_append_of_boundary isWord.2 boundary]

end Readers

end Multipass.Text
