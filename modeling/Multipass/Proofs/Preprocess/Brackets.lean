import Multipass.Preprocess.Problem
import Multipass.Proofs.Located

/-!
# Conditional directives as brackets

The directives that open and close groups are brackets: an `#endif` closes the innermost group
that is open, and one that finds none open is matched with nothing. In between stand the
directives that begin a branch. Whether a stretch of directives is balanced can be told from
how much higher the nesting is behind it and behind its parts.
-/

namespace Multipass.Preprocess

/-- What a conditional directive does to the groups: it opens one, goes on to the next or to the
    last branch of one, or closes one. -/
inductive Mark where
  | opens (opener : Opener)
  | next
  | last
  | closes
  deriving DecidableEq, Repr

namespace Mark

/-- Does the directive begin another branch of the group that is open? -/
def IsBranch (mark : Mark) : Prop :=
  mark = .next ∨ mark = .last

/-- How much higher the nesting is behind a directive. -/
def rise : Mark → Int
  | .opens _ => 1
  | .next | .last => 0
  | .closes => -1

end Mark

/-- The conditional directives of a text, on their lines. -/
abbrev Marks := List (Located Mark)

/-- Each opening is closed, and each closing closes one. -/
inductive Balanced : Marks → Prop where
  | nil : Balanced []
  | branch (line : Nat) {mark : Mark} : mark.IsBranch → Balanced [⟨line, mark⟩]
  | group (line last : Nat) (opener : Opener) {body : Marks} :
      Balanced body → Balanced (⟨line, .opens opener⟩ :: (body ++ [⟨last, .closes⟩]))
  | append {front back : Marks} : Balanced front → Balanced back → Balanced (front ++ back)

/-- Between an opening and the place behind these marks all that was opened was closed, so the
    group is the innermost one that is open. -/
structure IsInnermost (marks : Marks) (opening : Located Mark) (inside : Marks) : Prop where
  opens : ∃ opener, opening.content = .opens opener
  behind : ∃ outer, marks = outer ++ opening :: inside
  balanced : Balanced inside

/-- Is a group open behind these marks? -/
def IsInGroup (marks : Marks) : Prop :=
  ∃ opening inside, IsInnermost marks opening inside

/-- Is there a last branch among the branches of the group around these marks? -/
def HasLast (inside : Marks) : Prop :=
  ∃ own line rest, inside = own ++ ⟨line, .last⟩ :: rest ∧ Balanced own

/-- Has the innermost group that is open come to its last branch? -/
def IsBehindLast (marks : Marks) : Prop :=
  ∃ opening inside, IsInnermost marks opening inside ∧ HasLast inside

/-- Is the group closed that was opened right before these marks? -/
def IsClosed (marks : Marks) : Prop :=
  ∃ body line rest, marks = body ++ ⟨line, .closes⟩ :: rest ∧ Balanced body

/-- No group is open behind these marks, some of which may close a group though none is open. -/
inductive IsSettled : Marks → Prop where
  | balanced {marks : Marks} : Balanced marks → IsSettled marks
  | surplus {marks rest : Marks} {line : Nat} :
      IsSettled marks → Balanced rest → IsSettled (marks ++ ⟨line, .closes⟩ :: rest)

/-! ## Nesting -/

/-- How much higher the nesting is behind some marks. -/
def height : Marks → Int
  | [] => 0
  | mark :: marks => mark.content.rise + height marks

@[simp] theorem height_nil : height [] = 0 := rfl

@[simp] theorem height_cons (mark : Located Mark) (marks : Marks) :
    height (mark :: marks) = mark.content.rise + height marks := rfl

@[simp] theorem height_append (front back : Marks) :
    height (front ++ back) = height front + height back := by
  induction front with
  | nil => simp
  | cons mark front ih => rw [List.cons_append, height_cons, ih, height_cons, Int.add_assoc]

theorem Mark.IsBranch.rise {mark : Mark} (branch : mark.IsBranch) : mark.rise = 0 := by
  rcases branch with rfl | rfl <;> rfl

namespace Balanced

variable {marks front back : Marks}

theorem height_eq (balanced : Balanced marks) : height marks = 0 := by
  induction balanced with
  | nil => rfl
  | branch _ branch => simp [branch.rise]
  | group _ _ _ _ ih => simp [ih, Mark.rise]
  | append _ _ ihFront ihBack => simp [ihFront, ihBack]

/-- Within balanced marks the nesting is never lower than in front of them. -/
theorem height_front (balanced : Balanced marks) (parts : marks = front ++ back) :
    0 ≤ height front := by
  induction balanced generalizing front back with
  | nil => simp [(List.append_eq_nil_iff.mp parts.symm).1]
  | branch _ branch =>
    rcases List.singleton_eq_append_iff.mp parts with ⟨rfl, -⟩ | ⟨rfl, -⟩
    · exact Int.le_refl 0
    · simp [branch.rise]
  | group line last opener balanced ih =>
    rcases List.cons_eq_append_iff.mp parts with ⟨rfl, -⟩ | ⟨front, rfl, behind⟩
    · exact Int.le_refl 0
    · rcases List.append_eq_append_iff.mp behind with ⟨closing, rfl, ending⟩ | ⟨rest, whole, -⟩
      · rcases List.singleton_eq_append_iff.mp ending with ⟨rfl, -⟩ | ⟨rfl, -⟩
        · simp [balanced.height_eq, Mark.rise]
        · simp [balanced.height_eq, Mark.rise]
      · have inside := ih whole
        simp only [height_cons, Mark.rise]
        omega
  | append first second ihFirst ihSecond =>
    rcases List.append_eq_append_iff.mp parts with ⟨rest, rfl, whole⟩ | ⟨rest, whole, -⟩
    · rw [height_append, first.height_eq, Int.zero_add]
      exact ihSecond whole
    · exact ihFirst whole

/-- Behind balanced marks the nesting is never higher than within them. -/
theorem height_back (balanced : Balanced marks) (parts : marks = front ++ back) :
    height back ≤ 0 := by
  have whole := balanced.height_eq
  have inFront := balanced.height_front parts
  rw [parts, height_append] at whole
  omega

end Balanced

theorem IsClosed.append {marks : Marks} (closed : IsClosed marks) (rest : Marks) :
    IsClosed (marks ++ rest) := by
  obtain ⟨body, line, behind, rfl, balanced⟩ := closed
  exact ⟨body, line, behind ++ rest, by simp, balanced⟩

section Openings

variable {marks before after : Marks} {line : Nat} {opener : Opener}

/-- Whatever balanced marks open is closed by them. -/
theorem Balanced.isClosed (balanced : Balanced marks)
    (parts : marks = before ++ ⟨line, .opens opener⟩ :: after) : IsClosed after := by
  induction balanced generalizing before after with
  | nil => simp at parts
  | branch _ branch =>
    rcases List.singleton_eq_append_iff.mp parts with ⟨-, same⟩ | ⟨-, none⟩
    · cases same
      rcases branch with other | other <;> cases other
    · cases none
  | @group first last _ body balanced ih =>
    rcases List.cons_eq_append_iff.mp parts with ⟨-, same⟩ | ⟨before, rfl, behind⟩
    · exact ⟨body, last, [], (List.cons.inj same).2, balanced⟩
    · rcases append_eq_around behind with ⟨between, inBody, rfl⟩ | ⟨between, -, ending⟩
      · exact (ih inBody).append _
      · rcases List.singleton_eq_append_iff.mp ending with ⟨-, same⟩ | ⟨-, none⟩
        · cases same
        · cases none
  | append first second ihFirst ihSecond =>
    rcases append_eq_around parts with ⟨between, inFirst, rfl⟩ | ⟨between, -, inSecond⟩
    · exact (ihFirst inFirst).append _
    · exact ihSecond inSecond

/-- A group that is opened in front of balanced marks is not closed by them. -/
theorem Balanced.not_isClosed (balanced : Balanced marks) : ¬ IsClosed marks := by
  rintro ⟨body, line, rest, parts, inside⟩
  have ending : marks = (body ++ [⟨line, .closes⟩]) ++ rest := by simpa using parts
  have low := balanced.height_front ending
  simp [inside.height_eq, Mark.rise] at low

/-- What closes a group does not stand behind an opening that is still open. -/
theorem Balanced.isClosed_iff (balanced : Balanced marks) :
    IsClosed (before ++ ⟨line, .opens opener⟩ :: marks) ↔ IsClosed before := by
  refine ⟨?_, fun closed => closed.append _⟩
  rintro ⟨body, last, rest, parts, inside⟩
  rcases append_eq_around parts with ⟨between, inFront, -⟩ | ⟨between, rfl, behind⟩
  · exact ⟨body, last, between, inFront, inside⟩
  · exfalso
    rcases List.cons_eq_append_iff.mp behind with ⟨rfl, same⟩ | ⟨between, rfl, deeper⟩
    · cases (List.cons.inj same).1
    · have low := inside.height_back rfl
      have high := balanced.height_front deeper
      simp only [height_cons, Mark.rise] at low
      omega

/-- In a balanced stretch no balanced stretch follows an opening to the end. -/
theorem Balanced.not_opens (balanced : Balanced marks)
    (parts : marks = before ++ ⟨line, .opens opener⟩ :: after) : ¬ Balanced after := by
  intro rest
  have high := balanced.height_back parts
  simp [rest.height_eq, Mark.rise] at high

/-- There is only one innermost group. -/
theorem IsInnermost.unique {opening opening' : Located Mark} {inside inside' : Marks}
    (innermost : IsInnermost marks opening inside) (other : IsInnermost marks opening' inside') :
    opening = opening' ∧ inside = inside' := by
  obtain ⟨⟨opener, opens⟩, ⟨outer, rfl⟩, balanced⟩ := innermost
  obtain ⟨⟨opener', opens'⟩, ⟨outer', parts⟩, balanced'⟩ := other
  obtain ⟨line, _⟩ := opening
  obtain ⟨line', _⟩ := opening'
  cases opens
  cases opens'
  rcases append_eq_around parts with ⟨between, -, deeper⟩ | ⟨between, -, behind⟩
  · exact absurd balanced (balanced'.not_opens deeper)
  · rcases List.cons_eq_append_iff.mp behind with ⟨rfl, same⟩ | ⟨between, rfl, deeper⟩
    · exact List.cons.inj same.symm
    · exact absurd balanced' (balanced.not_opens deeper)

end Openings

/-! ## Where no group is open -/

namespace IsSettled

variable {marks before after : Marks} {line : Nat} {opener : Opener}

theorem append (settled : IsSettled marks) {rest : Marks} (balanced : Balanced rest) :
    IsSettled (marks ++ rest) := by
  cases settled with
  | balanced whole => exact .balanced (whole.append balanced)
  | surplus settled whole =>
    rw [List.append_assoc, List.cons_append]
    exact settled.surplus (whole.append balanced)

theorem isClosed (settled : IsSettled marks)
    (parts : marks = before ++ ⟨line, .opens opener⟩ :: after) : IsClosed after := by
  induction settled generalizing after with
  | balanced balanced => exact balanced.isClosed parts
  | surplus settled balanced ih =>
    rcases append_eq_around parts with ⟨between, inFront, rfl⟩ | ⟨between, -, behind⟩
    · exact (ih inFront).append _
    · rcases List.cons_eq_append_iff.mp behind with ⟨-, same⟩ | ⟨between, -, inRest⟩
      · cases (List.cons.inj same).1
      · exact balanced.isClosed inRest

theorem not_isInGroup (settled : IsSettled marks) : ¬ IsInGroup marks := by
  rintro ⟨⟨line, _⟩, inside, ⟨opener, opens⟩, ⟨outer, parts⟩, balanced⟩
  cases opens
  exact balanced.not_isClosed (settled.isClosed parts)

end IsSettled

/-! ## The last branch of a group -/

section Last

variable {inside : Marks}

theorem HasLast.append (last : HasLast inside) (rest : Marks) : HasLast (inside ++ rest) := by
  obtain ⟨own, line, behind, rfl, balanced⟩ := last
  exact ⟨own, line, behind ++ rest, by simp, balanced⟩

theorem Balanced.hasLast (balanced : Balanced inside) (line : Nat) :
    HasLast (inside ++ [⟨line, .last⟩]) :=
  ⟨inside, line, [], rfl, balanced⟩

/-- Another directive does not begin the last branch. -/
theorem hasLast_concat_iff {mark : Mark} (other : mark ≠ .last) (line : Nat) :
    HasLast (inside ++ [⟨line, mark⟩]) ↔ HasLast inside := by
  refine ⟨?_, fun last => last.append _⟩
  rintro ⟨own, here, rest, parts, balanced⟩
  rcases append_eq_around parts with ⟨between, inFront, -⟩ | ⟨between, -, behind⟩
  · exact ⟨own, here, between, inFront, balanced⟩
  · rcases List.singleton_eq_append_iff.mp behind with ⟨-, same⟩ | ⟨-, none⟩
    · cases same
      exact absurd rfl other
    · cases none

/-- The last branch of a group within the group is none of its own. -/
theorem hasLast_group_iff {body : Marks} (balanced : Balanced body) (line last : Nat)
    (opener : Opener) :
    HasLast (inside ++ ⟨line, .opens opener⟩ :: (body ++ [⟨last, .closes⟩])) ↔ HasLast inside := by
  refine ⟨?_, fun last => last.append _⟩
  rintro ⟨own, here, rest, parts, whole⟩
  rcases append_eq_around parts with ⟨between, inFront, -⟩ | ⟨between, rfl, behind⟩
  · exact ⟨own, here, between, inFront, whole⟩
  · exfalso
    rcases List.cons_eq_append_iff.mp behind with ⟨rfl, same⟩ | ⟨front, rfl, deeper⟩
    · cases (List.cons.inj same).1
    · have low := whole.height_back rfl
      rcases append_eq_around deeper with ⟨between, inBody, -⟩ | ⟨between, -, ending⟩
      · have inFront := balanced.height_front inBody
        simp only [height_cons, Mark.rise] at low
        omega
      · rcases List.singleton_eq_append_iff.mp ending with ⟨-, same⟩ | ⟨-, none⟩
        · cases same
        · cases none

end Last

end Multipass.Preprocess
