import Mathlib.Data.List.Infix
import Multipass.Text.Search

/-!
# Texts that are searched

The first occurrence of a needle, and whether there is one at all.
-/

namespace Multipass.Text

variable {needle text front rest : List Char} {c : Char}

theorem length_lt_of_breakAt? (nonempty : needle ≠ [])
    (found : breakAt? needle text = some (front, rest)) : rest.length < text.length := by
  have positive := List.length_pos_iff.mpr nonempty
  rw [eq_append_of_breakAt? found, List.length_append, List.length_append]
  omega

theorem breakAt?_subset (found : breakAt? needle text = some (front, rest)) :
    front ⊆ text ∧ rest ⊆ text := by
  rw [eq_append_of_breakAt? found]
  constructor
  · intro c member
    simp [member]
  · exact List.subset_append_right _ _

theorem breakAt?_cons_of_none (missing : after? needle (c :: text) = none) :
    breakAt? needle (c :: text) =
      (breakAt? needle text).map fun parts => (c :: parts.1, parts.2) := by
  rw [breakAt?, missing]

theorem breakAt?_self_append (nonempty : needle ≠ []) (rest : List Char) :
    breakAt? needle (needle ++ rest) = some ([], rest) := by
  obtain ⟨first, others, rfl⟩ := List.exists_cons_of_ne_nil nonempty
  rw [List.cons_append, breakAt?, ← List.cons_append, after?_eq_some_iff.mpr rfl]

/-- A text is cut at the first occurrence of a character. -/
theorem breakAt?_singleton_iff :
    breakAt? [c] text = some (front, rest) ↔ text = front ++ c :: rest ∧ c ∉ front := by
  induction text generalizing front rest with
  | nil => simp [breakAt?, after?]
  | cons d text ih =>
    by_cases same : d = c
    · have here : breakAt? [c] (d :: text) = some ([], text) := by
        rw [same]
        exact breakAt?_self_append (List.cons_ne_nil c []) text
      rw [here]
      constructor
      · intro cut
        cases cut
        simp [same]
      · rintro ⟨whole, other⟩
        cases front with
        | nil => simpa using (List.cons.inj whole).2
        | cons e front => simp_all
    · have missing : after? [c] (d :: text) = none := by simp [after?, same]
      rw [breakAt?_cons_of_none missing]
      cases front with
      | nil => simp [same]
      | cons e front =>
        simp only [Option.map_eq_some_iff, Prod.exists, ih, Prod.mk.injEq, List.cons.injEq,
          List.cons_append, List.mem_cons, not_or]
        constructor
        · rintro ⟨front', rest', ⟨rfl, later⟩, ⟨rfl, rfl⟩, rfl⟩
          exact ⟨⟨rfl, rfl⟩, Ne.symm same, later⟩
        · rintro ⟨⟨rfl, rfl⟩, -, later⟩
          exact ⟨front, rest, ⟨rfl, later⟩, ⟨rfl, rfl⟩, rfl⟩

/-- No occurrence of a needle stands in front of the one that is found. -/
theorem length_le_of_breakAt? {before behind : List Char}
    (found : breakAt? needle (before ++ (needle ++ behind)) = some (front, rest)) :
    front.length ≤ before.length := by
  induction before generalizing front rest with
  | nil =>
    have here : after? needle (needle ++ behind) = some behind := after?_eq_some_iff.mpr rfl
    rw [List.nil_append] at found
    cases whole : needle ++ behind with
    | nil =>
      rw [whole] at found here
      simp only [breakAt?, here, Option.map_some, Option.some.injEq, Prod.mk.injEq] at found
      simp [← found.1]
    | cons c text =>
      rw [whole] at found here
      simp only [breakAt?, here, Option.some.injEq, Prod.mk.injEq] at found
      simp [← found.1]
  | cons c before ih =>
    rw [List.cons_append, breakAt?] at found
    split at found
    · simp only [Option.some.injEq, Prod.mk.injEq] at found
      simp [← found.1]
    · obtain ⟨⟨front', rest'⟩, found', same⟩ := Option.map_eq_some_iff.mp found
      simp only [Prod.mk.injEq] at same
      rw [← same.1, List.length_cons, List.length_cons]
      exact Nat.succ_le_succ (ih found')

/-- A needle that occurs in a text is found in it. -/
theorem exists_breakAt? (before behind : List Char) :
    ∃ front rest, breakAt? needle (before ++ (needle ++ behind)) = some (front, rest) := by
  induction before with
  | nil =>
    have here : after? needle (needle ++ behind) = some behind := after?_eq_some_iff.mpr rfl
    rw [List.nil_append]
    cases whole : needle ++ behind with
    | nil =>
      rw [whole] at here
      exact ⟨[], behind, by rw [breakAt?, here]; rfl⟩
    | cons c text =>
      rw [whole] at here
      exact ⟨[], behind, by rw [breakAt?, here]⟩
  | cons c before ih =>
    obtain ⟨front, rest, found⟩ := ih
    rw [List.cons_append, breakAt?]
    split
    · exact ⟨[], _, rfl⟩
    · exact ⟨c :: front, rest, by rw [found]; rfl⟩

theorem contains_iff : contains needle text = true ↔ needle <:+: text := by
  constructor
  · intro found
    obtain ⟨⟨front, rest⟩, cut⟩ := Option.isSome_iff_exists.mp found
    exact ⟨front, rest, (eq_append_of_breakAt? cut).symm⟩
  · rintro ⟨before, behind, rfl⟩
    obtain ⟨front, rest, cut⟩ := exists_breakAt? before behind
    rw [contains, List.append_assoc, cut]
    rfl

end Multipass.Text
