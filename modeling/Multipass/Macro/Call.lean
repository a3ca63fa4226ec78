import Multipass.Text.Blank

/-!
# Macro calls

The arguments of a call stand in parentheses after the name, with spaces and tabs
allowed in between. A comma separates arguments only outside inner parentheses.
Arguments are taken as they are written, blanks included.
-/

namespace Multipass.Macro

/-- Put a character in front of the first argument. -/
def addToFirst (c : Char) (found : List (List Char) × List Char) : List (List Char) × List Char :=
  (found.1.modifyHead (c :: ·), found.2)

/-- The arguments up to the parenthesis that closes the call, and the text after
    it, inside `depth` more parentheses. -/
def argumentsWithin? (depth : Nat) : List Char → Option (List (List Char) × List Char)
  | [] => none
  | c :: rest =>
    if c = '(' then (argumentsWithin? (depth + 1) rest).map (addToFirst c)
    else if c = ')' then
      match depth with
      | 0 => some ([[]], rest)
      | outer + 1 => (argumentsWithin? outer rest).map (addToFirst c)
    else if c = ',' && depth == 0 then
      (argumentsWithin? 0 rest).map fun (arguments, after) => ([] :: arguments, after)
    else (argumentsWithin? depth rest).map (addToFirst c)

/-- The arguments of the call a text begins with, and the text after the call. -/
def arguments? (text : List Char) : Option (List (List Char) × List Char) :=
  match text.dropWhile Text.isSpaceOrTab with
  | '(' :: rest => argumentsWithin? 0 rest
  | _ => none

theorem argumentsWithin?_shorter {depth : Nat} {text after : List Char}
    {arguments : List (List Char)} (found : argumentsWithin? depth text = some (arguments, after)) :
    after.length < text.length := by
  fun_induction argumentsWithin? depth text generalizing arguments after with
  | case1 => simp at found
  | case2 depth rest ih =>
    obtain ⟨inner, hinner, same⟩ := Option.map_eq_some_iff.mp found
    have := ih hinner
    simp only [addToFirst, Prod.mk.injEq] at same
    rw [← same.2, List.length_cons]; omega
  | case3 => simp_all
  | case4 rest _ outer ih =>
    obtain ⟨inner, hinner, same⟩ := Option.map_eq_some_iff.mp found
    have := ih hinner
    simp only [addToFirst, Prod.mk.injEq] at same
    rw [← same.2, List.length_cons]; omega
  | case5 depth c rest _ _ _ ih =>
    obtain ⟨inner, hinner, same⟩ := Option.map_eq_some_iff.mp found
    have := ih hinner
    simp only [Prod.mk.injEq] at same
    rw [← same.2, List.length_cons]; omega
  | case6 depth c rest _ _ _ ih =>
    obtain ⟨inner, hinner, same⟩ := Option.map_eq_some_iff.mp found
    have := ih hinner
    simp only [addToFirst, Prod.mk.injEq] at same
    rw [← same.2, List.length_cons]; omega

/-- What follows a call is shorter than the text that begins with it. -/
theorem arguments?_shorter {text after : List Char} {arguments : List (List Char)}
    (found : arguments? text = some (arguments, after)) : after.length < text.length := by
  unfold arguments? at found
  split at found
  · rename_i rest opened
    have bound := (List.dropWhile_sublist (p := Text.isSpaceOrTab) (l := text)).length_le
    have := argumentsWithin?_shorter found
    rw [opened, List.length_cons] at bound; omega
  · simp at found

end Multipass.Macro
