import Mathlib.Algebra.Group.Nat.Defs
import Multipass.Log.Diagnostics
import Multipass.Proofs.Text.Search
import Multipass.Proofs.Text.Word

/-!
# The lines of a compiler log

A line of a log is told by its spelling: it names a line of the compiled text, or it speaks of
an error or a failure, or it says nothing. Whatever stands behind the colon after the number is
the message, and nothing in it makes a difference to how the line is read.
-/

namespace Multipass

namespace Text

variable {c : Char}

theorem toLower_of_isBlank (blank : isBlank c = true) : c.toLower = c := by
  refine dif_neg ?_
  rintro ⟨low, high⟩
  have letter : c.isAlpha = true := (Bool.or_eq_true _ _).mpr (.inl (decide_eq_true ⟨low, high⟩))
  rw [isBlank_of_isAlpha letter] at blank
  exact Bool.false_ne_true blank

end Text

namespace Log

open Text

/-! ## Lines that name a line -/

/-- The word that a severity is spelled with. -/
def severityWord : Severity → List Char
  | .error => "ERROR".toList
  | .warning => "WARNING".toList

/-- The spelling of a log line that names a line of the compiled text. -/
def Spells (line : List Char) (severity : Severity) (digits text : List Char) : Prop :=
  ∃ indent source, isAllBlank indent = true ∧ ':' ∉ source ∧ digits ≠ [] ∧
    (∀ c ∈ digits, isDecimalDigit c = true) ∧
    line = indent ++ (severityWord severity ++ ':' :: (source ++ ':' :: (digits ++ ':' :: text)))

/-- The number that digits stand for: zero if they are not all ASCII, or if it does not fit. -/
def IsLineNumber (digits : List Char) (number : Nat) : Prop :=
  number = if digits.all Char.isDigit = true ∧ Nat.ofDigitChars 10 digits 0 < 2 ^ 64 then
    Nat.ofDigitChars 10 digits 0 else 0

theorem isLineNumber_lineNumber {digits : List Char} (nonempty : digits ≠ []) :
    IsLineNumber digits (lineNumber digits) := by
  have value : digits.foldl (fun value digit => value * 10 + (digit.toNat - '0'.toNat)) 0 =
      Nat.ofDigitChars 10 digits 0 := by
    unfold Nat.ofDigitChars
    congr 1
    funext value digit
    rw [Nat.mul_comm]
  have size : UInt64.size = 2 ^ 64 := rfl
  have some : digits.isEmpty = false := List.isEmpty_eq_false_iff.mpr nonempty
  unfold IsLineNumber lineNumber decimalValue?
  rw [value, some, size]
  by_cases ascii : digits.all Char.isDigit = true
  · simp [ascii]
  · simp [ascii]

theorem after?_severityWord_iff {text rest : List Char} {severity : Severity} :
    after? (severityWord severity ++ [':']) text = some rest ↔
      text = severityWord severity ++ ':' :: rest := by
  rw [after?_eq_some_iff, List.append_assoc, List.singleton_append]

theorem severity?_eq_some_iff {text rest : List Char} {severity : Severity} :
    severity? text = some (severity, rest) ↔ text = severityWord severity ++ ':' :: rest := by
  have error : "ERROR:".toList = severityWord .error ++ [':'] := rfl
  have warning : "WARNING:".toList = severityWord .warning ++ [':'] := rfl
  unfold severity?
  rw [error, warning]
  constructor
  · intro found
    split at found
    · rename_i later begins
      cases found
      exact after?_severityWord_iff.mp begins
    · obtain ⟨later, begins, same⟩ := Option.map_eq_some_iff.mp found
      cases same
      exact after?_severityWord_iff.mp begins
  · intro whole
    have begins := after?_severityWord_iff.mpr whole
    cases severity with
    | error => rw [begins]
    | warning =>
      have missing : after? (severityWord .error ++ [':']) text = none := by
        rw [whole]
        rfl
      rw [missing, begins]
      rfl

theorem head_severityWord (severity : Severity) (rest : List Char) :
    ∀ c ∈ (severityWord severity ++ rest).head?, isBlank c = false := by
  intro c first
  cases severity with
  | error =>
    cases first
    decide
  | warning =>
    cases first
    decide

theorem isDecimalDigit_colon : isDecimalDigit ':' = false := by decide +kernel

/-- A line names a line of the compiled text exactly if it is spelled so. -/
theorem ofLine?_eq_some_iff {line : List Char} {entry : Entry} :
    Entry.ofLine? line = some entry ↔ ∃ digits text, Spells line entry.severity digits text ∧
      entry.line = lineNumber digits ∧ entry.message = trimStart text := by
  simp only [Entry.ofLine?, Option.bind_eq_bind, Option.bind_eq_some_iff, Prod.exists,
    severity?_eq_some_iff, breakAt?_singleton_iff, after?_eq_some_iff,
    Option.ite_none_left_eq_some, Option.some.injEq]
  constructor
  · rintro ⟨severity, _, begins, source, rest, ⟨rfl, noColon⟩, text, ended, some, rfl⟩
    obtain ⟨indent, blank, rfl, -⟩ := trimStart_eq_iff.mp begins
    refine ⟨rest.takeWhile isDecimalDigit, text, ⟨indent, source, blank, noColon, ?_, ?_, ?_⟩,
      rfl, rfl⟩
    · simpa using some
    · intro c member
      exact List.mem_takeWhile_imp member
    · have whole : rest = rest.takeWhile isDecimalDigit ++ ':' :: text := by
        rw [← List.singleton_append, ← ended, List.takeWhile_append_dropWhile]
      rw [← whole]
  · obtain ⟨severity, number, message⟩ := entry
    rintro ⟨digits, text, ⟨indent, source, blank, noColon, some, inside, rfl⟩, rfl, rfl⟩
    have stops : ∀ c ∈ (':' :: text).head?, isDecimalDigit c = false := by
      intro c first
      cases first
      exact isDecimalDigit_colon
    have begins : trimStart (indent ++ (severityWord severity ++
        ':' :: (source ++ ':' :: (digits ++ ':' :: text)))) =
          severityWord severity ++ ':' :: (source ++ ':' :: (digits ++ ':' :: text)) :=
      trimStart_eq_iff.mpr ⟨indent, blank, rfl, head_severityWord severity _⟩
    refine ⟨severity, _, begins, source, digits ++ ':' :: text, ⟨rfl, noColon⟩, text, ?_, ?_, ?_⟩
    · exact dropWhile_append_of_boundary inside stops
    · rw [takeWhile_append_of_boundary inside stops]
      simpa using some
    · rw [takeWhile_append_of_boundary inside stops]

/-! ## Lines that speak of a failure -/

/-- Does a word occur in a line, in any case of its letters? The word is given in lower case. -/
def Mentions (word line : List Char) : Prop :=
  ∃ part, part <:+: line ∧ part.map Char.toLower = word

/-- A line that speaks of an error or a failure, and does not name a line. -/
structure IsFailure (line : List Char) : Prop where
  unnamed : ∀ severity digits text, ¬ Spells line severity digits text
  mentions : Mentions "error".toList line ∨ Mentions "failed".toList line

theorem contains_map_toLower_iff {word line : List Char} :
    contains word (line.map Char.toLower) = true ↔ Mentions word line := by
  rw [contains_iff, List.infix_map_iff]
  simp only [Mentions, eq_comm]

theorem speaksOfFailure_iff {line : List Char} :
    speaksOfFailure line = true ↔ Mentions "error".toList line ∨ Mentions "failed".toList line := by
  rw [speaksOfFailure, Bool.or_eq_true, contains_map_toLower_iff, contains_map_toLower_iff]

section Blank

variable {line : List Char}

theorem not_spells_of_isAllBlank (blank : isAllBlank line = true) (severity : Severity)
    (digits text : List Char) : ¬ Spells line severity digits text := by
  rintro ⟨indent, source, -, -, -, -, rfl⟩
  have colon : isBlank ':' = true := List.all_eq_true.mp blank ':' (by simp)
  exact absurd colon (by decide)

theorem not_mentions_of_isAllBlank (blank : isAllBlank line = true) {c : Char} {word : List Char}
    (shown : isBlank c = false) : ¬ Mentions (c :: word) line := by
  rintro ⟨part, inside, lower⟩
  cases part with
  | nil => cases lower
  | cons d part =>
    have blankHere : isBlank d = true :=
      List.all_eq_true.mp blank d (inside.subset List.mem_cons_self)
    rw [List.map_cons, toLower_of_isBlank blankHere] at lower
    rw [(List.cons.inj lower).1, shown] at blankHere
    exact Bool.false_ne_true blankHere

theorem not_isFailure_of_isAllBlank (blank : isAllBlank line = true) : ¬ IsFailure line := by
  intro failure
  rcases failure.mentions with error | failed
  · exact not_mentions_of_isAllBlank blank (by decide) error
  · exact not_mentions_of_isAllBlank blank (by decide) failed

end Blank

/-! ## Lines that end in a carriage return -/

section Return

variable {line : List Char} {c : Char}

/-- What stands at the end of a line belongs to its message. -/
theorem spells_concat_iff (notColon : c ≠ ':') {severity : Severity} {digits text : List Char} :
    Spells (line ++ [c]) severity digits text ↔
      ∃ front, text = front ++ [c] ∧ Spells line severity digits front := by
  constructor
  · rintro ⟨indent, source, blank, noColon, some, inside, whole⟩
    have split : line ++ [c] = (indent ++ (severityWord severity ++
        ':' :: (source ++ ':' :: (digits ++ [':'])))) ++ text := by simp [whole]
    rcases List.eq_nil_or_concat' text with rfl | ⟨front, d, rfl⟩
    · have last := congrArg List.getLast? split
      simp [List.getLast?_append, List.getLast?_cons] at last
      exact absurd last notColon
    · rw [← List.append_assoc] at split
      obtain ⟨same, ends⟩ := List.append_inj' split rfl
      cases ends
      exact ⟨front, rfl, indent, source, blank, noColon, some, inside, by simp [same]⟩
  · rintro ⟨front, rfl, indent, source, blank, noColon, some, inside, rfl⟩
    exact ⟨indent, source, blank, noColon, some, inside, by simp⟩

theorem infix_concat_iff_of_notMem {word : List Char} (nonempty : word ≠ []) (other : c ∉ word) :
    word <:+: line ++ [c] ↔ word <:+: line := by
  rw [List.infix_concat_iff, or_iff_right]
  intro ends
  rcases List.suffix_concat_iff.mp ends with rfl | ⟨front, rfl, -⟩
  · exact nonempty rfl
  · simp at other

theorem speaksOfFailure_concat (line : List Char) :
    speaksOfFailure (line ++ ['\r']) = speaksOfFailure line := by
  have lower : (line ++ ['\r']).map Char.toLower = line.map Char.toLower ++ ['\r'] := by simp
  have same : ∀ word : List Char, word ≠ [] → '\r' ∉ word →
      contains word (line.map Char.toLower ++ ['\r']) = contains word (line.map Char.toLower) := by
    intro word nonempty other
    rw [Bool.eq_iff_iff, contains_iff, contains_iff, infix_concat_iff_of_notMem nonempty other]
  rw [speaksOfFailure, speaksOfFailure, lower, same _ (by decide) (by decide),
    same _ (by decide) (by decide)]

end Return

end Log

end Multipass
