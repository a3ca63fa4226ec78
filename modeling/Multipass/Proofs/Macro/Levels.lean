import Multipass.Proofs.Macro.Scanning

/-!
# The levels of an expansion

An expansion that the levels are enough for does not change with more of them. One that they are
not enough for names the macro at which it gave up.
-/

namespace Multipass.Macro

/-! ## More levels -/

/-- One function gives every result that another one gives. -/
def Extends (more less : List Char → Except ExpansionProblem (List Char)) : Prop :=
  ∀ text expansion, less text = .ok expansion → more text = .ok expansion

section Extending

variable {table : Table}

theorem scan_extends {more less : Option (List Char → Except ExpansionProblem (List Char))}
    (further : ∀ expand ∈ less, ∃ other ∈ more, Extends other expand) :
    Extends (scan table more) (scan table less) := by
  intro text expansion expanded
  rw [scan_eq_ok_iff] at expanded ⊢
  induction expanded with
  | nil => exact .nil
  | kept begins leaves _ ih => exact .kept begins leaves ih
  | uncalled given begins found uncalled _ ih =>
    obtain ⟨other, above, -⟩ := further _ given
    exact .uncalled above begins found uncalled ih
  | replaced given begins found ofBody stays _ ih =>
    obtain ⟨other, above, goesOn⟩ := further _ given
    exact .replaced above begins found (goesOn _ _ ofBody) stays ih
  | passedOn given begins found ofBody passes ofCall =>
    obtain ⟨other, above, goesOn⟩ := further _ given
    exact .passedOn above begins found (goesOn _ _ ofBody) passes (goesOn _ _ ofCall)
  | called given begins found called arity ofArguments ofBody _ ih =>
    obtain ⟨other, above, goesOn⟩ := further _ given
    have ofArguments := mapM_eq_ok_of_imp (fun _ _ => goesOn _ _) ofArguments
    exact .called above begins found called arity ofArguments (goesOn _ _ ofBody) ih

/-- With more levels a text has the same expansion. -/
theorem expandWithin_extends (levels more : Nat) :
    Extends (expandWithin table (levels + more)) (expandWithin table levels) := by
  induction levels with
  | zero =>
    cases more with
    | zero => exact fun text expansion expanded => expanded
    | succ more => exact scan_extends fun expand absent => by cases absent
  | succ levels ih =>
    rw [Nat.add_right_comm]
    refine scan_extends ?_
    rintro expand ⟨⟩
    exact ⟨_, rfl, ih⟩

end Extending

/-! ## Giving up -/

/-- An expansion gives up at a macro. -/
theorem exists_definition_of_scan {table : Table}
    {deeper : Option (List Char → Except ExpansionProblem (List Char))}
    (inner : ∀ expand ∈ deeper, ∀ text name, expand text = .error (.recursion name) →
      ∃ definition, table.find? name = some definition)
    {text name : List Char} (failed : scan table deeper text = .error (.recursion name)) :
    ∃ definition, table.find? name = some definition := by
  fun_induction scan table deeper text with
  | case1 => cases failed
  | case2 _ _ _ _ _ _ ih | case3 _ _ _ _ _ _ ih | case4 _ _ _ _ _ _ _ ih =>
    exact ih (map_eq_error_iff.mp failed)
  | case5 _ _ _ _ _ definition _ found =>
    cases failed
    exact ⟨definition, found⟩
  | case6 first rest after _ name isName body line expand given found ih =>
    subst given
    rcases bind_eq_error_iff.mp failed with ofBody | ⟨expansion, -, failed⟩
    · exact inner expand rfl _ _ ofBody
    · split at failed
      · exact ih (map_eq_error_iff.mp failed)
      · split at failed
        · exact inner expand rfl _ _ (map_eq_error_iff.mp failed)
        · exact ih (map_eq_error_iff.mp failed)
  | case7 first rest after _ name isName parameters body line expand given found _ ih =>
    subst given
    exact ih (map_eq_error_iff.mp failed)
  | case8 first rest after _ name isName parameters body line expand given found written
      afterCall called _ arguments _ ih =>
    subst given
    rcases bind_eq_error_iff.mp failed with ofArguments | ⟨values, -, failed⟩
    · obtain ⟨argument, -, fails⟩ := exists_of_mapM_eq_error ofArguments
      exact inner expand rfl _ _ fails
    · rcases bind_eq_error_iff.mp failed with ofBody | ⟨expansion, -, failed⟩
      · exact inner expand rfl _ _ ofBody
      · exact ih (map_eq_error_iff.mp failed)
  | case9 => cases failed

theorem exists_definition_of_expandWithin {table : Table} {levels : Nat} {text name : List Char}
    (failed : expandWithin table levels text = .error (.recursion name)) :
    ∃ definition, table.find? name = some definition := by
  induction levels generalizing text name with
  | zero => exact exists_definition_of_scan (fun _ absent => by cases absent) failed
  | succ levels ih =>
    refine exists_definition_of_scan ?_ failed
    rintro expand ⟨⟩ text name
    exact ih

theorem exists_definition_of_recursion {table : Table} {text name : List Char}
    (failed : expand table text = .error (.recursion name)) :
    ∃ definition, table.find? name = some definition :=
  exists_definition_of_expandWithin failed

end Multipass.Macro
