import Multipass.Json.Problem

/-!
# Readers

A reader takes a value off the beginning of a text, or meets a problem. It never gives
back more text than it was given, so reading in a loop comes to an end.
-/

namespace Multipass.Json

/-- The result of reading from a text: a value and the unread text. -/
abbrev Result (α : Type) := Except Problem (α × List Char)

/-- A reader takes something off the front of a text, so what it leaves is not longer. -/
structure Reader (α : Type) where
  run : List Char → Result α
  bound : ∀ {text rest : List Char} {value : α},
    run text = .ok (value, rest) → rest.length ≤ text.length

namespace Reader

variable {α β : Type}

/-- Read nothing. -/
def pure (value : α) : Reader α where
  run text := .ok (value, text)
  bound := by
    intro text rest value same
    simp only [Except.ok.injEq, Prod.mk.injEq] at same
    exact Nat.le_of_eq (congrArg _ same.2.symm)

/-- Read one thing and then what depends on it. -/
def bind (reader : Reader α) (next : α → Reader β) : Reader β where
  run text :=
    match reader.run text with
    | .error problem => .error problem
    | .ok (value, rest) => (next value).run rest
  bound := by
    intro text rest value same
    split at same
    · simp at same
    · rename_i first middle read
      exact Nat.le_trans ((next first).bound same) (reader.bound read)

instance : Monad Reader where
  pure := pure
  bind := bind

@[simp] theorem run_pure (value : α) (text : List Char) :
    (Pure.pure value : Reader α).run text = .ok (value, text) := rfl

theorem run_bind (reader : Reader α) (next : α → Reader β) (text : List Char) :
    (reader >>= next).run text =
      match reader.run text with
      | .error problem => .error problem
      | .ok (value, rest) => (next value).run rest := rfl

/-- A problem in front of the unread text. -/
def fail (fault : Fault) (mark : Mark) : Reader α where
  run text := .error ⟨fault, text, mark⟩
  bound := by simp

/-- A text that breaks the rules of documents at its first character. -/
def malformed (fault : SyntaxFault) : Reader α :=
  fail (.malformed fault) .next

end Reader

end Multipass.Json
