/-!
# Things found on a line
-/

namespace Multipass

/-- Something found on a line of a text. Lines count from one; zero stands for no
    line in particular. -/
structure Located (α : Type) where
  line : Nat
  content : α
  deriving DecidableEq, Repr

namespace Located

variable {α β : Type}

/-- Something else on the same line. -/
def map (f : α → β) (located : Located α) : Located β :=
  ⟨located.line, f located.content⟩

/-- In the order of their lines; what was found earlier on a line stays first. -/
def sortByLine (found : List (Located α)) : List (Located α) :=
  found.mergeSort fun left right => left.line ≤ right.line

end Located

end Multipass
