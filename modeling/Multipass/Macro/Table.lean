/-!
# Macro tables

A table holds at most one macro for a name. Defining a macro again replaces it.
-/

namespace Multipass.Macro

/-- A macro without parameters stands for its body; one with parameters must be
    called. `line` is the line of the definition. -/
structure Definition where
  parameters : Option (List (List Char))
  body : List Char
  line : Nat
  deriving DecidableEq, Repr

/-- The macros in force, each under its name. -/
structure Table where
  entries : List (List Char × Definition)
  deriving Repr

namespace Table

/-- The table without macros. -/
def empty : Table :=
  ⟨[]⟩

/-- Is nothing defined? -/
def isEmpty (table : Table) : Bool :=
  table.entries.isEmpty

/-- The definition that a name has at present. -/
def find? (table : Table) (name : List Char) : Option Definition :=
  table.entries.lookup name

/-- Is the name defined? -/
def contains (table : Table) (name : List Char) : Bool :=
  (table.find? name).isSome

/-- Forget a name. One that is not defined stays so. -/
def undefine (table : Table) (name : List Char) : Table :=
  ⟨table.entries.filter fun entry => entry.1 != name⟩

/-- Give a name a definition, which takes the place of an earlier one. -/
def define (table : Table) (name : List Char) (definition : Definition) : Table :=
  ⟨(name, definition) :: (table.undefine name).entries⟩

theorem find?_define_self (table : Table) (name : List Char) (definition : Definition) :
    (table.define name definition).find? name = some definition := by
  simp [find?, define]

theorem find?_undefine_self (table : Table) (name : List Char) :
    (table.undefine name).find? name = none := by
  simp only [find?, undefine]
  generalize table.entries = entries
  induction entries with
  | nil => rfl
  | cons entry rest ih =>
    by_cases same : entry.1 = name
    · simpa [List.filter_cons, same] using ih
    · simpa [List.filter_cons, same, List.lookup_cons, Ne.symm same] using ih

section Others

variable (table : Table) {name other : List Char}

theorem find?_undefine_of_ne (different : name ≠ other) :
    (table.undefine other).find? name = table.find? name := by
  simp only [find?, undefine]
  induction table.entries with
  | nil => rfl
  | cons entry rest ih =>
    obtain ⟨key, definition⟩ := entry
    by_cases same : key = other
    · have passed : (name == key) = false := by
        rw [same]
        exact beq_eq_false_iff_ne.mpr different
      rw [List.filter_cons_of_neg (by simp [same]), List.lookup_cons, passed]
      exact ih
    · rw [List.filter_cons_of_pos (by simp [same]), List.lookup_cons, List.lookup_cons, ih]

theorem find?_define_of_ne (different : name ≠ other) (definition : Definition) :
    (table.define other definition).find? name = table.find? name := by
  have passed : (name == other) = false := beq_eq_false_iff_ne.mpr different
  rw [← find?_undefine_of_ne table different]
  simp [find?, define, List.lookup_cons, passed]

end Others

end Table

end Multipass.Macro
