import Multipass.Proofs.Macro.Scanning
import Multipass.Proofs.Text.Names

/-!
# Texts that name no macro

A text none of whose names is that of a macro is its own expansion. So is every text where
there are no macros.
-/

namespace Multipass.Macro

/-- Is none of the names in a text that of a macro? -/
def Table.Ignores (table : Table) (text : List Char) : Prop :=
  ∀ name ∈ Text.names text, table.find? name = none

theorem Table.Ignores.later {table : Table} {c : Char} {rest : List Char}
    (ignores : table.Ignores (c :: rest)) : table.Ignores (Text.leadingLexeme c rest).2 := by
  intro name member
  refine ignores name ?_
  rw [Text.names_cons]
  exact List.mem_append_right _ member

theorem Table.Ignores.name {table : Table} {c : Char} {rest name : List Char}
    (ignores : table.Ignores (c :: rest))
    (isName : (Text.leadingLexeme c rest).1 = .name name) : table.find? name = none := by
  refine ignores name ?_
  rw [Text.names_cons, isName]
  exact List.mem_append_left _ List.mem_cons_self

theorem Table.Ignores.leaves {table : Table} {c : Char} {rest : List Char}
    (ignores : table.Ignores (c :: rest)) : table.Leaves (Text.leadingLexeme c rest).1 := by
  cases lexeme : (Text.leadingLexeme c rest).1 with
  | number text | gap text => trivial
  | name name => exact ignores.name lexeme

theorem Table.ignores_of_isEmpty {table : Table} (empty : table.isEmpty = true)
    (text : List Char) : table.Ignores text := by
  intro name _
  rw [Table.find?, List.isEmpty_iff.mp empty]
  rfl

theorem scan_of_ignores {table : Table} {text : List Char} (ignores : table.Ignores text)
    (deeper : Option (List Char → Except ExpansionProblem (List Char))) :
    scan table deeper text = .ok text := by
  fun_induction Text.lexemes text with
  | case1 => rw [scan]
  | case2 c rest ih =>
    rw [scan_of_leaves (Prod.eta _).symm ignores.leaves, ih ignores.later]
    exact congrArg Except.ok (Text.leadingLexeme_append c rest)

theorem expand_of_ignores {table : Table} {text : List Char} (ignores : table.Ignores text) :
    expand table text = .ok text :=
  scan_of_ignores ignores _

theorem expand_of_isEmpty {table : Table} (empty : table.isEmpty = true) (text : List Char) :
    expand table text = .ok text :=
  expand_of_ignores (Table.ignores_of_isEmpty empty text)

end Multipass.Macro
