import Mathlib.Data.List.Basic
import Mathlib.Data.List.TakeWhile
import Multipass.Text.Blank

/-!
# Trimming

Trimming at one end leaves the other end as it is, and takes off all blanks there.
-/

namespace Multipass.Text

theorem dropTrailing_eq_nil_iff {p : Char → Bool} {text : List Char} :
    dropTrailing p text = [] ↔ ∀ c ∈ text, p c = true := by
  simp only [dropTrailing, List.reverse_eq_nil_iff, List.dropWhile_eq_nil_iff, List.mem_reverse]

theorem dropTrailing_append (p : Char → Bool) (front back : List Char) :
    dropTrailing p (front ++ back) =
      if dropTrailing p back = [] then dropTrailing p front
      else front ++ dropTrailing p back := by
  unfold dropTrailing
  rw [List.reverse_append, List.dropWhile_append]
  by_cases empty : back.reverse.dropWhile p = []
  · rw [empty]
    rfl
  · rw [if_neg (by simpa using empty), if_neg (by simpa using empty), List.reverse_append,
      List.reverse_reverse]

theorem dropTrailing_concat {p : Char → Bool} {c : Char} (stays : p c = false)
    (front : List Char) : dropTrailing p (front ++ [c]) = front ++ [c] := by
  rw [dropTrailing, List.reverse_append, List.reverse_singleton, List.singleton_append,
    List.dropWhile_cons_of_neg (by rw [stays]; exact Bool.false_ne_true), List.reverse_cons,
    List.reverse_reverse]

/-- A text is what is left of it, and what was trimmed at its end. -/
theorem dropTrailing_append_trimmed (p : Char → Bool) (text : List Char) :
    dropTrailing p text ++ (text.reverse.takeWhile p).reverse = text := by
  rw [dropTrailing, ← List.reverse_append, List.takeWhile_append_dropWhile, List.reverse_reverse]

/-- Trimming takes off what is to be trimmed and stops at what is not. -/
theorem dropTrailing_append_of_all {p : Char → Bool} {front back : List Char}
    (stays : ∀ c ∈ front, p c = false) (goes : ∀ c ∈ back, p c = true) :
    dropTrailing p (front ++ back) = front := by
  rw [dropTrailing, List.reverse_append,
    List.dropWhile_append_of_pos fun c member => goes c (List.mem_reverse.mp member)]
  obtain rfl | ⟨earlier, last, rfl⟩ := List.eq_nil_or_concat' front
  · rfl
  · rw [List.reverse_append, List.reverse_singleton, List.singleton_append,
      List.dropWhile_cons_of_neg (by simp [stays last]), List.reverse_cons, List.reverse_reverse]

/-- What a trimmed text begins with, the text begins with. -/
theorem head?_dropTrailing {p : Char → Bool} {text : List Char} {c : Char}
    (begins : (dropTrailing p text).head? = some c) : text.head? = some c := by
  rw [← dropTrailing_append_trimmed p text, List.head?_append, begins, Option.some_or]

/-- Letters stand between `A` and `z`. -/
theorem toNat_of_isAlpha {c : Char} (letter : c.isAlpha = true) :
    65 ≤ c.toNat ∧ c.toNat ≤ 122 := by
  rcases (Bool.or_eq_true _ _).mp letter with upper | lower
  · obtain ⟨low, high⟩ := of_decide_eq_true upper
    exact ⟨low, Nat.le_trans high (by decide)⟩
  · obtain ⟨low, high⟩ := (Bool.and_eq_true _ _).mp lower
    exact ⟨Nat.le_trans (by decide) (of_decide_eq_true low), of_decide_eq_true high⟩

theorem isBlank_of_isAlpha {c : Char} (letter : c.isAlpha = true) : isBlank c = false := by
  have range := toNat_of_isAlpha letter
  unfold isBlank
  simp only [Bool.or_eq_false_iff, Bool.and_eq_false_iff, decide_eq_false_iff_not, beq_eq_false_iff_ne]
  omega

theorem trimEnd_cons {c : Char} (visible : isBlank c = false) (rest : List Char) :
    trimEnd (c :: rest) = c :: trimEnd rest := by
  show dropTrailing isBlank ([c] ++ rest) = _
  rw [dropTrailing_append]
  split
  · rename_i nothing
    rw [trimEnd, nothing]
    exact dropTrailing_concat visible []
  · rfl

/-- A blank at the end of a line is trimmed off. -/
theorem trim_concat_of_isBlank {c : Char} (blank : isBlank c = true) (front : List Char) :
    trim (front ++ [c]) = trim front := by
  have single : dropTrailing isBlank [c] = [] := by
    rw [dropTrailing, List.reverse_singleton, List.dropWhile_cons_of_pos blank]
    rfl
  unfold trim trimStart trimEnd
  rw [List.dropWhile_append]
  split
  · rename_i nothing
    rw [List.isEmpty_iff.mp nothing, List.dropWhile_cons_of_pos blank]
    rfl
  · rw [dropTrailing_append, if_pos single]

/-- The last character of a trimmed text is the last one of the text trimmed at its end. -/
theorem getLast?_trimEnd_of_trim {text : List Char} {c : Char}
    (ends : (trim text).getLast? = some c) : (trimEnd text).getLast? = some c := by
  have whole : text.takeWhile isBlank ++ trimStart text = text := List.takeWhile_append_dropWhile
  have visible : trim text ≠ [] := by
    intro empty
    rw [empty] at ends
    simp at ends
  rw [← whole, trimEnd, dropTrailing_append]
  show (if trim text = [] then _ else _ ++ trim text).getLast? = some c
  rw [if_neg visible, List.getLast?_append, ends, Option.some_or]

end Multipass.Text
