import Mathlib.Logic.Relation
import Multipass.Proofs.Macro.Call
import Multipass.Proofs.Macro.Scanning

/-!
# Macros that come back to themselves

A macro without parameters whose body leads back to it, through the bodies of such macros, has
no expansion at any depth, and no text that uses it has one.
-/

namespace Multipass.Macro

/-- Does a name stand for the body of a macro, without a call? -/
def Table.StandsAlone (table : Table) (name : List Char) : Prop :=
  ∃ definition, table.find? name = some definition ∧ definition.parameters = none

/-- Is one name used in the body that the other stands for? -/
def Table.LeadsTo (table : Table) (name next : List Char) : Prop :=
  ∃ definition, table.find? name = some definition ∧ definition.parameters = none ∧
    next ∈ Text.names definition.body

/-- Does a name come back to itself through the bodies that names stand for? -/
def Table.Circles (table : Table) (name : List Char) : Prop :=
  Relation.TransGen table.LeadsTo name name

/-- A text uses one of the given names. -/
def Uses (circling : List Char → Prop) (text : List Char) : Prop :=
  ∃ name ∈ Text.names text, circling name

/-- A function that gives no text for a text that uses one of the given names. -/
def Refuses (circling : List Char → Prop)
    (expand : List Char → Except ExpansionProblem (List Char)) : Prop :=
  ∀ text expansion, Uses circling text → expand text ≠ .ok expansion

section Circling

variable {table : Table} {circling : List Char → Prop}

theorem Uses.later {c : Char} {rest : List Char} (uses : Uses circling (c :: rest))
    (other : ∀ name, (Text.leadingLexeme c rest).1 = .name name → ¬ circling name) :
    Uses circling (Text.leadingLexeme c rest).2 := by
  obtain ⟨name, member, circles⟩ := uses
  rw [Text.names_cons] at member
  rcases List.mem_append.mp member with here | later
  · cases lexeme : (Text.leadingLexeme c rest).1 with
    | name text =>
      rw [lexeme] at here
      rw [List.mem_singleton.mp here] at circles
      exact absurd circles (other text lexeme)
    | number text | gap text =>
      rw [lexeme] at here
      exact absurd here List.not_mem_nil
  · exact ⟨name, later, circles⟩

theorem Uses.afterName {c : Char} {rest name after : List Char} (uses : Uses circling (c :: rest))
    (begins : Text.leadingLexeme c rest = (.name name, after)) (other : ¬ circling name) :
    Uses circling after := by
  obtain ⟨isName, rfl⟩ := Prod.ext_iff.mp begins
  refine uses.later fun same isSame => ?_
  rw [isName] at isSame
  cases isSame
  exact other

/-- What a text uses in a call, an argument uses. -/
theorem Uses.call {text after : List Char} {arguments : List (List Char)}
    (uses : Uses circling text) (reads : arguments? text = some (arguments, after)) :
    (∃ argument ∈ arguments, Uses circling argument) ∨ Uses circling after := by
  obtain ⟨name, member, circles⟩ := uses
  rw [names_of_arguments? reads] at member
  rcases List.mem_append.mp member with inside | later
  · obtain ⟨argument, given, inArgument⟩ := List.mem_flatMap.mp inside
    exact .inl ⟨argument, given, name, inArgument, circles⟩
  · exact .inr ⟨name, later, circles⟩

/-- What follows the name of a macro that passes its call on is used behind the callee too. -/
theorem Uses.behind {expansion front callee after : List Char} (uses : Uses circling after)
    (trailing : trailingCallee? table expansion = some (front, callee))
    (boundary : ∀ d ∈ after.head?, Text.isNameChar d = false) :
    Uses circling (callee ++ after) := by
  obtain ⟨-, -, c, others, rfl, start, inside⟩ := eq_of_trailingCallee? trailing
  obtain ⟨used, member, circles⟩ := uses
  refine ⟨used, ?_, circles⟩
  rw [Text.names_name_append start inside boundary]
  exact List.mem_cons_of_mem _ member

theorem Uses.trim {text : List Char} (uses : Uses circling text) : Uses circling (Text.trim text) := by
  obtain ⟨name, member, circles⟩ := uses
  exact ⟨name, by rwa [Text.names_trim], circles⟩

/-- An argument that is left out, since a macro has no parameters, uses nothing. -/
theorem mem_callArguments {parameters written : List (List Char)} {argument : List Char}
    (member : argument ∈ written) (uses : Uses circling argument) :
    argument ∈ callArguments parameters written := by
  unfold callArguments
  split
  · rename_i only
    rw [List.mem_singleton.mp member] at uses ⊢
    split
    · rename_i blank
      obtain ⟨name, inOnly, -⟩ := uses
      rw [Text.names_of_isAllBlank blank] at inOnly
      exact absurd inOnly List.not_mem_nil
    · exact List.mem_cons_self
  · exact member

theorem scan_refuses {deeper : Option (List Char → Except ExpansionProblem (List Char))}
    (leads : ∀ name, circling name → ∃ next, table.LeadsTo name next ∧ circling next)
    (refuses : ∀ expand ∈ deeper, Refuses circling expand) :
    Refuses circling (scan table deeper) := by
  intro text expansion uses expanded
  have alone : ∀ {name : List Char} {definition : Definition}, circling name →
      table.find? name = some definition →
        definition.parameters = none ∧ Uses circling definition.body := by
    intro name definition circles found
    obtain ⟨next, ⟨same, found', without, member⟩, circles⟩ := leads name circles
    rw [found] at found'
    cases found'
    exact ⟨without, next, member, circles⟩
  rw [scan_eq_ok_iff] at expanded
  induction expanded with
  | nil =>
    obtain ⟨name, member, -⟩ := uses
    exact absurd member (by simp)
  | kept begins leaves _ ih =>
    obtain ⟨rfl, rfl⟩ := Prod.ext_iff.mp begins
    refine ih (uses.later fun name isName circles => ?_)
    obtain ⟨next, ⟨definition, found, -⟩, -⟩ := leads name circles
    rw [isName] at leaves
    cases found.symm.trans leaves
  | uncalled _ begins found _ _ ih =>
    refine ih (uses.afterName begins fun circles => ?_)
    cases (alone circles found).1
  | replaced given begins found ofBody _ _ ih =>
    refine ih (uses.afterName begins fun circles => ?_)
    exact refuses _ given _ _ (alone circles found).2 ofBody
  | passedOn given begins found ofBody passes ofCall =>
    have usesAfter := uses.afterName begins fun circles =>
      refuses _ given _ _ (alone circles found).2 ofBody
    obtain ⟨isName, rfl⟩ := Prod.ext_iff.mp begins
    have usesCall := usesAfter.behind (trailingCallee?_of_passesOn? passes)
      (Text.boundary_of_name isName)
    exact refuses _ given _ _ usesCall ofCall
  | called given begins found called _ ofArguments _ _ ih =>
    have usesAfter := uses.afterName begins fun circles => by cases (alone circles found).1
    rcases usesAfter.call called with ⟨argument, member, inArgument⟩ | inRest
    · obtain ⟨value, -, gives⟩ :=
        exists_result_of_mem_mapM ofArguments (mem_callArguments member inArgument)
      exact refuses _ given _ value inArgument.trim gives
    · exact ih inRest

theorem expandWithin_refuses
    (leads : ∀ name, circling name → ∃ next, table.LeadsTo name next ∧ circling next)
    (levels : Nat) : Refuses circling (expandWithin table levels) := by
  induction levels with
  | zero => exact scan_refuses leads nofun
  | succ levels ih =>
    refine scan_refuses leads ?_
    rintro expand ⟨⟩
    exact ih

end Circling

/-- What leads to a name that comes back to itself leads on to what does. -/
theorem Table.Circles.leadsOn {table : Table} {name other : List Char} (circles : table.Circles name)
    (reaches : Relation.TransGen table.LeadsTo other name) :
    ∃ next, table.LeadsTo other next ∧ Relation.TransGen table.LeadsTo next name := by
  obtain ⟨next, step, last⟩ := Relation.TransGen.head'_iff.mp reaches
  refine ⟨next, step, ?_⟩
  rcases Relation.reflTransGen_iff_eq_or_transGen.mp last with rfl | more
  · exact circles
  · exact more

/-- A text that uses a name that comes back to itself has no expansion. -/
theorem exists_error_of_circles {table : Table} {name text : List Char}
    (circles : table.Circles name) (used : name ∈ Text.names text) :
    ∃ problem, expand table text = .error problem := by
  have refuses : Refuses (Relation.TransGen table.LeadsTo · name) (expand table) :=
    expandWithin_refuses (fun _ => circles.leadsOn) expansionLimit
  cases expanded : expand table text with
  | error problem => exact ⟨problem, rfl⟩
  | ok expansion => exact absurd expanded (refuses text expansion ⟨name, used, circles⟩)

end Multipass.Macro
