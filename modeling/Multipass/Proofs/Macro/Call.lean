import Multipass.Proofs.Macro.Scanning
import Multipass.Proofs.Text.Names
import Multipass.Text.Lines

/-!
# The text of a call

A call is an opening parenthesis, its arguments with commas in between, and a closing
parenthesis. So the names in a call are the names in its arguments. An expansion may end in
the name that is called.
-/

namespace Multipass.Macro

section Join

variable {arguments : List (List Char)}

theorem join_cons (argument : List Char) (more : arguments ≠ []) :
    Text.join ',' (argument :: arguments) = argument ++ ',' :: Text.join ',' arguments := by
  obtain ⟨next, rest, rfl⟩ := List.exists_cons_of_ne_nil more
  rw [Text.join, List.intercalate_cons_cons, List.append_assoc, List.singleton_append]
  rfl

theorem join_modifyHead (nonempty : arguments ≠ []) (c : Char) :
    Text.join ',' (arguments.modifyHead (c :: ·)) = c :: Text.join ',' arguments := by
  obtain ⟨first, rest, rfl⟩ := List.exists_cons_of_ne_nil nonempty
  by_cases last : rest = []
  · subst last
    simp [Text.join]
  · rw [List.modifyHead_cons, join_cons _ last, join_cons _ last, List.cons_append]

theorem infix_join {argument : List Char} (member : argument ∈ arguments) :
    argument <:+: Text.join ',' arguments := by
  induction arguments with
  | nil => exact absurd member List.not_mem_nil
  | cons first rest ih =>
    by_cases last : rest = []
    · subst last
      exact ⟨[], [], by simp [Text.join, List.mem_singleton.mp member]⟩
    · rw [join_cons first last]
      rcases List.mem_cons.mp member with rfl | later
      · exact (List.prefix_append _ _).isInfix
      · exact (ih later).trans ((List.suffix_cons _ _).trans (List.suffix_append _ _)).isInfix

theorem names_join (arguments : List (List Char)) :
    Text.names (Text.join ',' arguments) = arguments.flatMap Text.names := by
  induction arguments with
  | nil => exact Text.names_nil
  | cons first rest ih =>
    by_cases last : rest = []
    · subst last
      simp [Text.join]
    · rw [join_cons first last, Text.names_append_cons (by decide), ih, List.flatMap_cons]

end Join

theorem eq_of_argumentsWithin? {depth : Nat} {text : List Char}
    {found : List (List Char) × List Char} (reads : argumentsWithin? depth text = some found) :
    found.1 ≠ [] ∧ text = Text.join ',' found.1 ++ ')' :: found.2 := by
  -- A character that separates nothing stands in front of the first argument.
  have extend : ∀ {rest : List Char} {inner : List (List Char) × List Char} (c : Char),
      inner.1 ≠ [] ∧ rest = Text.join ',' inner.1 ++ ')' :: inner.2 →
      (addToFirst c inner).1 ≠ [] ∧
        c :: rest = Text.join ',' (addToFirst c inner).1 ++ ')' :: (addToFirst c inner).2 := by
    rintro rest inner c ⟨nonempty, rfl⟩
    refine ⟨by simpa [addToFirst] using nonempty, ?_⟩
    rw [addToFirst, join_modifyHead nonempty, List.cons_append]
  fun_induction argumentsWithin? depth text generalizing found with
  | case1 => cases reads
  | case2 depth rest ih =>
    obtain ⟨inner, closed, rfl⟩ := Option.map_eq_some_iff.mp reads
    exact extend _ (ih closed)
  | case3 rest =>
    cases reads
    exact ⟨List.cons_ne_nil _ _, rfl⟩
  | case4 rest _ outer ih =>
    obtain ⟨inner, closed, rfl⟩ := Option.map_eq_some_iff.mp reads
    exact extend _ (ih closed)
  | case5 depth c rest _ _ separates ih =>
    obtain ⟨inner, closed, rfl⟩ := Option.map_eq_some_iff.mp reads
    obtain ⟨nonempty, rfl⟩ := ih closed
    have comma : c = ',' := of_decide_eq_true ((Bool.and_eq_true _ _).mp separates).1
    refine ⟨List.cons_ne_nil _ _, ?_⟩
    rw [comma, join_cons [] nonempty, List.nil_append, List.cons_append]
  | case6 depth c rest _ _ _ ih =>
    obtain ⟨inner, closed, rfl⟩ := Option.map_eq_some_iff.mp reads
    exact extend _ (ih closed)

theorem eq_of_arguments? {text after : List Char} {arguments : List (List Char)}
    (reads : arguments? text = some (arguments, after)) :
    ∃ blanks, (∀ c ∈ blanks, Text.isSpaceOrTab c = true) ∧
      text = blanks ++ '(' :: (Text.join ',' arguments ++ ')' :: after) := by
  refine ⟨text.takeWhile Text.isSpaceOrTab, fun c member => List.mem_takeWhile_imp member, ?_⟩
  unfold arguments? at reads
  split at reads
  · rename_i rest opened
    rw [← (eq_of_argumentsWithin? reads).2, ← opened, List.takeWhile_append_dropWhile]
  · cases reads

/-- The names in a call are the names in its arguments. -/
theorem names_of_arguments? {text after : List Char} {arguments : List (List Char)}
    (reads : arguments? text = some (arguments, after)) :
    Text.names text = arguments.flatMap Text.names ++ Text.names after := by
  obtain ⟨blanks, blank, rfl⟩ := eq_of_arguments? reads
  have gap : ∀ c ∈ blanks, Text.isNameChar c = false := by
    intro c member
    rcases (Bool.or_eq_true _ _).mp (blank c member) with space | tab
    · rw [beq_iff_eq.mp space]
      rfl
    · rw [beq_iff_eq.mp tab]
      rfl
  rw [Text.names_append_of_gap gap, Text.names_of_gap (by decide),
    Text.names_append_cons (by decide), names_join]

theorem trailingNameChars_cut (text : List Char) :
    (Text.trailingNameChars text).1 ++ (Text.trailingNameChars text).2 = text ∧
      (∀ c ∈ (Text.trailingNameChars text).1.getLast?, Text.isNameChar c = false) ∧
      ∀ d ∈ (Text.trailingNameChars text).2, Text.isNameChar d = true := by
  refine ⟨Text.dropTrailing_append_trimmed Text.isNameChar text, ?_, ?_⟩
  · show ∀ c ∈ (text.reverse.dropWhile Text.isNameChar).reverse.getLast?, _
    rw [List.getLast?_reverse]
    exact Text.boundary_dropWhile _ _
  · exact fun d member => List.mem_takeWhile_imp (List.mem_reverse.mp member)

/-- An expansion that ends in the name of a macro, cut where the name begins. -/
theorem eq_of_trailingCallee? {table : Table} {expansion front callee : List Char}
    (found : trailingCallee? table expansion = some (front, callee)) :
    front ++ callee = expansion ∧ (∀ c ∈ front.getLast?, Text.isNameChar c = false) ∧
      ∃ c rest, callee = c :: rest ∧ Text.isNameStart c = true ∧
        ∀ d ∈ rest, Text.isNameChar d = true := by
  obtain ⟨cut, ⟨c, rest, rfl, start⟩, -⟩ := trailingCallee?_cases found
  obtain ⟨whole, ends, inside⟩ := trailingNameChars_cut expansion
  rw [cut] at whole ends inside
  exact ⟨whole, ends, c, rest, rfl, start, fun d member => inside d (List.mem_cons_of_mem c member)⟩

end Multipass.Macro
