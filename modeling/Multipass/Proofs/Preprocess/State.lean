import Multipass.Preprocess.State

/-!
# What a step leaves alone

Only a definition or its removal changes the macros. Reporting a problem, evaluating a
condition, expanding a line of code and going from branch to branch leave them alone. Only a
line of code opens or closes a comment.
-/

namespace Multipass.Preprocess.State

variable (state : State) (line : Nat)

@[simp] theorem report_table (problem : Problem) : (state.report line problem).table = state.table :=
  rfl

@[simp] theorem reportExpansion_table (problem : Macro.ExpansionProblem) :
    (state.reportExpansion line problem).table = state.table := by
  unfold reportExpansion
  split
  · rfl
  · split <;> rfl

@[simp] theorem condition_table (text : List Char) :
    (state.condition line text).2.table = state.table := by
  unfold condition
  split
  · simp
  · split <;> simp

@[simp] theorem testName_table (opener : Opener) (wanted : Bool) (rest : List Char) :
    (state.testName line opener wanted rest).2.table = state.table := by
  unfold testName
  split <;> rfl

@[simp] theorem openGroup_table (opener : Opener) (holds : Bool) :
    (state.openGroup line opener holds).table = state.table := rfl

@[simp] theorem nextBranch_table (rest : List Char) :
    (state.nextBranch line rest).table = state.table := by
  unfold nextBranch
  split
  · rfl
  · split
    · rfl
    · split
      · simp
      · rfl

@[simp] theorem lastBranch_table : (state.lastBranch line).table = state.table := by
  unfold lastBranch
  split
  · rfl
  · split <;> rfl

@[simp] theorem closeGroup_table : (state.closeGroup line).table = state.table := by
  unfold closeGroup
  split <;> rfl

/-- Only definitions and their removal change the macros. -/
theorem directive_table {directive : Directive} (undefined : ∀ rest, directive ≠ .define rest)
    (kept : ∀ rest, directive ≠ .undefine rest) :
    (state.directive line directive).table = state.table := by
  cases directive with
  | nothing => rfl
  | define rest => exact absurd rfl (undefined rest)
  | undefine rest => exact absurd rfl (kept rest)
  | openNamed opener wanted rest =>
    simp only [State.directive]
    split <;> simp
  | openCondition rest =>
    simp only [State.directive]
    split <;> simp
  | orCondition rest => simp [State.directive]
  | otherwise => simp [State.directive]
  | close => simp [State.directive]
  | announce rest =>
    simp only [State.directive]
    split <;> rfl
  | foreign => rfl

theorem expandSegments_table (segments : List Comment.Segment) :
    (state.expandSegments line segments).2.table = state.table := by
  fun_induction expandSegments state line segments with
  | case1 => rfl
  | case2 state text rest later final expanded ih => simpa [expanded] using ih
  | case3 state text rest expansion _ later final expanded ih => simpa [expanded] using ih
  | case4 state text rest problem _ later final expanded ih => simpa [expanded] using ih

@[simp] theorem codeLine_table (text : List Char) :
    (state.codeLine line text).2.table = state.table := by
  unfold codeLine
  split
  · rfl
  · exact expandSegments_table state line _

/-! ## Comments -/

@[simp] theorem report_insideComment (problem : Problem) :
    (state.report line problem).insideComment = state.insideComment := rfl

@[simp] theorem reportExpansion_insideComment (problem : Macro.ExpansionProblem) :
    (state.reportExpansion line problem).insideComment = state.insideComment := by
  unfold reportExpansion
  split
  · rfl
  · split <;> rfl

@[simp] theorem condition_insideComment (text : List Char) :
    (state.condition line text).2.insideComment = state.insideComment := by
  unfold condition
  split
  · simp
  · split <;> simp

@[simp] theorem testName_insideComment (opener : Opener) (wanted : Bool) (rest : List Char) :
    (state.testName line opener wanted rest).2.insideComment = state.insideComment := by
  unfold testName
  split <;> rfl

@[simp] theorem openGroup_insideComment (opener : Opener) (holds : Bool) :
    (state.openGroup line opener holds).insideComment = state.insideComment := rfl

/-- No directive opens or closes a comment. -/
theorem directive_insideComment (directive : Directive) :
    (state.directive line directive).insideComment = state.insideComment := by
  cases directive with
  | nothing | foreign => rfl
  | define rest =>
    simp only [State.directive, define]
    split
    · split <;> rfl
    · rfl
  | undefine rest =>
    simp only [State.directive, undefine]
    split
    · split <;> rfl
    · rfl
  | announce rest =>
    simp only [State.directive]
    split <;> rfl
  | openNamed opener wanted rest =>
    simp only [State.directive]
    split <;> simp
  | openCondition rest =>
    simp only [State.directive]
    split <;> simp
  | orCondition rest =>
    simp only [State.directive, nextBranch]
    split
    · rfl
    · split
      · rfl
      · split <;> simp
  | otherwise =>
    simp only [State.directive, lastBranch]
    split
    · rfl
    · split <;> rfl
  | close =>
    simp only [State.directive, closeGroup]
    split <;> rfl

end Multipass.Preprocess.State
