import Multipass.Macro.Expansion

/-!
# Where macros are defined

A table notes the line on which each macro is defined, for the problems that are reported there.
What a text expands to does not depend on these lines.
-/

namespace Multipass.Macro

/-- A definition with no line noted. -/
def Definition.withoutLine (definition : Definition) : Definition :=
  { definition with line := 0 }

namespace Table

/-- A table with no lines noted. -/
def withoutLines (table : Table) : Table :=
  ⟨table.entries.map fun entry => (entry.1, entry.2.withoutLine)⟩

variable (table : Table) (name : List Char)

@[simp] theorem isEmpty_withoutLines : table.withoutLines.isEmpty = table.isEmpty := by
  simp [isEmpty, withoutLines]

@[simp] theorem find?_withoutLines :
    table.withoutLines.find? name = (table.find? name).map Definition.withoutLine := by
  unfold find? withoutLines
  induction table.entries with
  | nil => rfl
  | cons entry rest ih =>
    obtain ⟨key, definition⟩ := entry
    cases same : name == key with
    | true => simp [List.lookup_cons, same]
    | false => simpa [List.lookup_cons, same] using ih

@[simp] theorem contains_withoutLines : table.withoutLines.contains name = table.contains name := by
  simp [contains]

@[simp] theorem undefine_withoutLines :
    table.withoutLines.undefine name = (table.undefine name).withoutLines := by
  simp [undefine, withoutLines, List.filter_map, Function.comp_def]

@[simp] theorem define_withoutLines (definition : Definition) :
    table.withoutLines.define name definition.withoutLine =
      (table.define name definition).withoutLines := by
  rw [define, undefine_withoutLines]
  rfl

end Table

section Expanding

variable (table : Table)

@[simp] theorem trailingCallee?_withoutLines (expansion : List Char) :
    trailingCallee? table.withoutLines expansion = trailingCallee? table expansion := by
  simp [trailingCallee?, Option.any_map, Definition.withoutLine]

@[simp] theorem scan_withoutLines
    (deeper : Option (List Char → Except ExpansionProblem (List Char))) (text : List Char) :
    scan table.withoutLines deeper text = scan table deeper text := by
  fun_induction scan table deeper text with
  | case1 => rw [scan]
  | case2 first rest after _ text isLexeme ih | case3 first rest after _ text isLexeme ih =>
    rw [scan]
    simp only [isLexeme, after] at ih ⊢
    rw [ih]
  | case4 first rest after _ name isName absent ih =>
    rw [scan]
    simp only [isName, Table.find?_withoutLines, absent, Option.map_none, after] at ih ⊢
    rw [ih]
  | case5 first rest _ name isName definition given found =>
    subst given
    rw [scan]
    simp only [isName, Table.find?_withoutLines, found, Option.map_some]
  | case6 first rest after _ name isName body line expand given found ih =>
    subst given
    rw [scan]
    simp only [isName, Table.find?_withoutLines, found, Option.map_some, Definition.withoutLine,
      trailingCallee?_withoutLines, after] at ih ⊢
    rw [ih]
  | case7 first rest after _ name isName parameters body line expand given found called ih =>
    subst given
    rw [scan]
    simp only [isName, Table.find?_withoutLines, found, Option.map_some, Definition.withoutLine,
      after] at ih called ⊢
    split
    · rw [ih]
    · rename_i reads
      rw [called] at reads
      cases reads
  | case8 first rest after _ name isName parameters body line expand given found written
      afterCall called _ arguments fits ih =>
    subst given
    rw [scan]
    simp only [isName, Table.find?_withoutLines, found, Option.map_some, Definition.withoutLine]
    split
    · rename_i reads
      rw [called] at reads
      cases reads
    · rename_i reads
      rw [called] at reads
      cases reads
      rw [if_pos fits, ih]
  | case9 first rest after _ name isName parameters body line expand given found written
      afterCall called _ arguments fits =>
    subst given
    rw [scan]
    simp only [isName, Table.find?_withoutLines, found, Option.map_some, Definition.withoutLine]
    split
    · rename_i reads
      rw [called] at reads
      cases reads
    · rename_i reads
      rw [called] at reads
      cases reads
      exact if_neg fits

@[simp] theorem expandWithin_withoutLines (levels : Nat) :
    expandWithin table.withoutLines levels = expandWithin table levels := by
  induction levels with
  | zero => exact funext (scan_withoutLines table none)
  | succ levels ih =>
    rw [expandWithin, expandWithin, ih]
    exact funext (scan_withoutLines table _)

/-- The lines on which macros are defined do not matter for an expansion. -/
@[simp] theorem expand_withoutLines (text : List Char) :
    expand table.withoutLines text = expand table text := by
  rw [expand, expandWithin_withoutLines, expand]

end Expanding

end Multipass.Macro
