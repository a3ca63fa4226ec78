import Multipass.Proofs.Condition.Grammar
import Multipass.Proofs.Condition.Lexing

/-!
# The value of a condition is that of its tree

A condition is evaluated while it is read, and no tree is built. Where the evaluation
succeeds there is a tree with that value, and no operator of the tree divides by zero.
-/

namespace Multipass.Condition

/-- Identifiers count as zero, and both operands of every operator are evaluated. -/
def Tree.value : Tree → Int64
  | .literal value => value
  | .name => 0
  | .group inner => inner.value
  | .front op operand => op.value operand.value
  | .binary op left right => op.value left.value right.value

/-- No operator of a tree divides by zero, not even one whose value does not matter. -/
def Tree.Defined : Tree → Prop
  | .literal _ => True
  | .name => True
  | .group inner => inner.Defined
  | .front _ operand => operand.Defined
  | .binary op left right => left.Defined ∧ right.Defined ∧ (op.Divides → right.value ≠ 0)

/-- An evaluation gives a value and leaves some tokens, whatever is known of their number. -/
def Gives {bounded : List Token → Prop}
    (evaluated : Except Problem (Int64 × { rest : List Token // bounded rest })) (value : Int64)
    (rest : List Token) : Prop :=
  ∃ bound, evaluated = .ok (value, ⟨rest, bound⟩)

/-! ## Steps of the evaluation -/

section Steps

variable {level : Nat} {left value : Int64} {tokens rest : List Token} {op : Operator}
  {between : BinaryOp}

theorem gives_ok {bounded : List Token → Prop} {given : Int64}
    {after : { rest : List Token // bounded rest }} :
    Gives (.ok (given, after)) value rest ↔ given = value ∧ after.val = rest := by
  constructor
  · rintro ⟨bound, same⟩
    cases same
    exact ⟨rfl, rfl⟩
  · rintro ⟨rfl, rfl⟩
    exact ⟨after.property, rfl⟩

theorem gives_bind {α : Type} {bounded : List Token → Prop} {step : Except Problem α}
    {next : α → Except Problem (Int64 × { rest : List Token // bounded rest })} :
    Gives (step >>= next) value rest ↔
      ∃ first, step = .ok first ∧ Gives (next first) value rest := by
  unfold Gives
  simp only [bind_eq_ok_iff]
  exact ⟨fun ⟨bound, first, here, later⟩ => ⟨first, here, bound, later⟩,
    fun ⟨first, here, bound, later⟩ => ⟨bound, first, here, later⟩⟩

theorem gives_operand_opening :
    Gives (operand (.opening :: tokens)) value rest ↔
      Gives (expression 1 tokens) value (.closing :: rest) := by
  rw [operand, gives_bind]
  constructor
  · rintro ⟨⟨inner, after, shorter⟩, read, closed⟩
    cases after with
    | nil => exact absurd closed.choose_spec (by simp)
    | cons token last =>
      cases token with
      | closing =>
        obtain ⟨rfl, rfl⟩ := gives_ok.mp closed
        exact ⟨shorter, read⟩
      | _ => exact absurd closed.choose_spec (by simp)
  · rintro ⟨shorter, read⟩
    exact ⟨_, read, gives_ok.mpr ⟨rfl, rfl⟩⟩

theorem gives_operand_operator :
    Gives (operand (.operator op :: tokens)) value rest ↔
      ∃ apply inner, op.applyFront? = some apply ∧ Gives (operand tokens) inner rest ∧
        apply inner = value := by
  rw [operand]
  cases found : op.applyFront? with
  | none =>
    constructor
    · rintro ⟨_, given⟩
      cases given
    · rintro ⟨_, _, none, -⟩
      cases none
  | some apply =>
    rw [gives_bind]
    constructor
    · rintro ⟨⟨inner, after, shorter⟩, read, given⟩
      obtain ⟨same, rfl⟩ := gives_ok.mp given
      exact ⟨apply, inner, rfl, ⟨shorter, read⟩, same⟩
    · rintro ⟨_, inner, same, ⟨shorter, read⟩, rfl⟩
      cases same
      exact ⟨_, read, gives_ok.mpr ⟨rfl, rfl⟩⟩

theorem gives_expression :
    Gives (expression level tokens) value rest ↔
      ∃ left after, Gives (operand tokens) left after ∧
        Gives (climb level left after) value rest := by
  rw [expression, gives_bind]
  constructor
  · rintro ⟨⟨left, after, shorter⟩, read, later⟩
    obtain ⟨⟨result, last, bound⟩, climbs, given⟩ := gives_bind.mp later
    obtain ⟨rfl, rfl⟩ := gives_ok.mp given
    exact ⟨left, after, ⟨shorter, read⟩, bound, climbs⟩
  · rintro ⟨left, after, ⟨shorter, read⟩, bound, climbs⟩
    exact ⟨_, read, gives_bind.mpr ⟨_, climbs, gives_ok.mpr ⟨rfl, rfl⟩⟩⟩

theorem gives_climb_operator (above : level ≤ between.precedence) :
    Gives (climb level left (.operator (.binary between) :: tokens)) value rest ↔
      ∃ right after joined, Gives (expression (between.precedence + 1) tokens) right after ∧
        between.apply left right = .ok joined ∧ Gives (climb level joined after) value rest := by
  rw [climb, if_pos above, gives_bind]
  constructor
  · rintro ⟨⟨right, after, shorter⟩, read, later⟩
    obtain ⟨joined, applied, later⟩ := gives_bind.mp later
    obtain ⟨⟨result, last, bound⟩, climbs, given⟩ := gives_bind.mp later
    obtain ⟨rfl, rfl⟩ := gives_ok.mp given
    exact ⟨right, after, joined, ⟨shorter, read⟩, applied, bound, climbs⟩
  · rintro ⟨right, after, joined, ⟨shorter, read⟩, applied, bound, climbs⟩
    exact ⟨_, read, gives_bind.mpr ⟨_, applied,
      gives_bind.mpr ⟨_, climbs, gives_ok.mpr ⟨rfl, rfl⟩⟩⟩⟩

theorem gives_climb_stop (stops : Stops level tokens) :
    Gives (climb level left tokens) value rest ↔ left = value ∧ tokens = rest := by
  unfold climb
  split
  · rename_i op later
    rw [if_neg (Nat.not_le.mpr (stops op later rfl)), gives_ok]
  · rw [gives_ok]

end Steps

/-! ## Trees of evaluations -/

/-- What evaluation gives at a stage is the value of the tree that is read. -/
def Stage.Evaluated (tokens : List Token) (tree : Tree) (rest : List Token) : Stage → Prop
  | .operand => Gives (Condition.operand tokens) tree.value rest
  | .expression level => Gives (Condition.expression level tokens) tree.value rest
  | .climb level left =>
    left.Defined ∧ Gives (Condition.climb level left.value tokens) tree.value rest

theorem Reads.evaluated {stage : Stage} {tokens rest : List Token} {tree : Tree}
    (reads : Reads stage tokens tree rest) (defined : tree.Defined) :
    stage.Evaluated tokens tree rest := by
  induction reads with
  | literal =>
    rw [Stage.Evaluated, Condition.operand]
    exact gives_ok.mpr ⟨rfl, rfl⟩
  | name =>
    rw [Stage.Evaluated, Condition.operand]
    exact gives_ok.mpr ⟨rfl, rfl⟩
  | group _ ih => exact gives_operand_opening.mpr (ih defined)
  | @front op spelled tokens rest inner same _ ih =>
    subst same
    exact gives_operand_operator.mpr ⟨op.value, _, applyFront?_operator op, ih defined, rfl⟩
  | expression _ _ operandIh climbIh =>
    obtain ⟨leftDefined, climbs⟩ := climbIh defined
    exact gives_expression.mpr ⟨_, _, operandIh leftDefined, climbs⟩
  | goOn above _ _ rightIh climbIh =>
    obtain ⟨⟨leftDefined, rightDefined, divides⟩, climbs⟩ := climbIh defined
    exact ⟨leftDefined, (gives_climb_operator above).mpr
      ⟨_, _, _, rightIh rightDefined, apply_eq_ok_iff.mpr ⟨divides, rfl⟩, climbs⟩⟩
  | stop stops => exact ⟨defined, (gives_climb_stop stops).mpr ⟨rfl, rfl⟩⟩

/-- Each evaluation has a tree. The rest of a row is evaluated after any tree with the
    value so far. -/
theorem exists_reads :
    (∀ tokens value rest, Gives (operand tokens) value rest →
      ∃ tree, Reads .operand tokens tree rest ∧ tree.Defined ∧ tree.value = value) ∧
    (∀ level tokens value rest, Gives (expression level tokens) value rest →
      ∃ tree, Reads (.expression level) tokens tree rest ∧ tree.Defined ∧ tree.value = value) ∧
    (∀ level start tokens (left : Tree) value rest, left.Defined → left.value = start →
      Gives (climb level start tokens) value rest →
      ∃ tree, Reads (.climb level left) tokens tree rest ∧ tree.Defined ∧ tree.value = value) := by
  -- The cases are the equations of operands, of rows, and of what follows a left operand.
  apply operand.mutual_induct
  case case1 =>
    rintro value rest ⟨_, given⟩
    rw [operand] at given
    cases given
  case case2 =>
    intro number after value rest given
    rw [operand] at given
    obtain ⟨rfl, rfl⟩ := gives_ok.mp given
    exact ⟨.literal number, .literal, trivial, rfl⟩
  case case3 =>
    intro after value rest given
    rw [operand] at given
    obtain ⟨rfl, rfl⟩ := gives_ok.mp given
    exact ⟨.name, .name, trivial, rfl⟩
  case case4 =>
    rintro after value rest ⟨_, given⟩
    rw [operand] at given
    cases given
  case case5 =>
    intro tokens ih value rest given
    obtain ⟨tree, reads, defined, same⟩ := ih _ _ (gives_operand_opening.mp given)
    exact ⟨.group tree, .group reads, defined, same⟩
  case case6 =>
    intro op tokens refused value rest given
    obtain ⟨apply, _, found, -⟩ := gives_operand_operator.mp given
    rw [refused] at found
    cases found
  case case7 =>
    intro op tokens _ _ ih value rest given
    obtain ⟨apply, inner, found, read, rfl⟩ := gives_operand_operator.mp given
    obtain ⟨front, rfl⟩ := exists_front_of_applyFront? found
    rw [applyFront?_operator] at found
    cases found
    obtain ⟨tree, reads, defined, rfl⟩ := ih _ _ read
    exact ⟨.front front tree, .front rfl reads, defined, rfl⟩
  case case8 =>
    intro level tokens operandIh climbIh value rest given
    obtain ⟨start, after, ⟨shorter, read⟩, climbs⟩ := gives_expression.mp given
    obtain ⟨left, readsLeft, leftDefined, same⟩ := operandIh _ _ ⟨shorter, read⟩
    obtain ⟨tree, reads, defined, total⟩ :=
      climbIh start after shorter left value rest leftDefined same climbs
    exact ⟨tree, .expression readsLeft reads, defined, total⟩
  case case9 =>
    intro level start op tokens above rightIh climbIh left value rest leftDefined same given
    obtain ⟨_, after, joined, ⟨shorter, read⟩, applied, climbs⟩ :=
      (gives_climb_operator above).mp given
    obtain ⟨right, readsRight, rightDefined, rfl⟩ := rightIh _ _ ⟨shorter, read⟩
    subst same
    obtain ⟨divides, total⟩ := apply_eq_ok_iff.mp applied
    obtain ⟨tree, reads, defined, result⟩ := climbIh after shorter joined
      (.binary op left right) value rest ⟨leftDefined, rightDefined, divides⟩ total climbs
    exact ⟨tree, .goOn above readsRight reads, defined, result⟩
  case case10 =>
    intro level start op tokens below left value rest defined same given
    have stops : Stops level (.operator (.binary op) :: tokens) := by
      intro another later begins
      cases begins
      exact Nat.lt_of_not_le below
    obtain ⟨rfl, rfl⟩ := (gives_climb_stop stops).mp given
    exact ⟨left, .stop stops, defined, same⟩
  case case11 =>
    intro level start tokens ends left value rest defined same given
    have stops : Stops level tokens := fun op later begins => (ends op later begins).elim
    obtain ⟨rfl, rfl⟩ := (gives_climb_stop stops).mp given
    exact ⟨left, .stop stops, defined, same⟩

/-- A row of tokens has a value when it is evaluated to its end. -/
theorem tokensValue_iff_gives {tokens : List Token} {value : Int64} :
    tokensValue tokens = .ok value ↔ Gives (expression 1 tokens) value [] := by
  unfold tokensValue
  split
  · next empty =>
    rw [List.isEmpty_iff.mp empty, gives_expression]
    constructor
    · intro given
      cases given
    · rintro ⟨_, _, ⟨_, read⟩, -⟩
      rw [operand] at read
      cases read
  · rw [bind_eq_ok_iff]
    constructor
    · rintro ⟨⟨inner, rest, shorter⟩, read, ends⟩
      cases rest with
      | nil =>
        cases ends
        exact ⟨shorter, read⟩
      | cons _ _ => cases ends
    · rintro ⟨shorter, read⟩
      exact ⟨_, read, rfl⟩

theorem tokensValue_eq_ok_iff {tokens : List Token} {value : Int64} :
    tokensValue tokens = .ok value ↔
      ∃ tree, Derives 1 tokens tree ∧ tree.Defined ∧ tree.value = value := by
  rw [tokensValue_iff_gives]
  constructor
  · intro given
    obtain ⟨tree, reads, defined, same⟩ := exists_reads.2.1 _ _ _ _ given
    exact ⟨tree, derives_iff_reads.mpr reads, defined, same⟩
  · rintro ⟨tree, derives, defined, rfl⟩
    exact (derives_iff_reads.mp derives).evaluated defined

/-- A condition has a value when its text has tokens, the tokens have a tree, and nothing in
    the tree divides by zero. The tokens and the tree are then the only ones. -/
theorem evaluate_eq_ok_iff (text : String) :
    (∀ value, evaluate text = .ok value ↔
      ∃ tokens tree, Lexes text.toList tokens ∧ Derives 1 tokens tree ∧ tree.Defined ∧
        tree.value = value) ∧
    (∀ tokens another, Lexes text.toList tokens → Lexes text.toList another →
      tokens = another) ∧
    ∀ tokens tree another, Derives 1 tokens tree → Derives 1 tokens another →
      tree = another := by
  refine ⟨fun value => ?_, ?_, fun _ _ _ => Derives.unique⟩
  · rw [evaluate, valueOf, bind_eq_ok_iff]
    simp only [tokenize_eq_ok_iff, tokensValue_eq_ok_iff]
    exact ⟨fun ⟨tokens, lexes, tree, derived⟩ => ⟨tokens, tree, lexes, derived⟩,
      fun ⟨tokens, tree, lexes, derived⟩ => ⟨tokens, lexes, tree, derived⟩⟩
  · intro tokens another lexes again
    have same := (tokenize_eq_ok_iff.mpr lexes).symm.trans (tokenize_eq_ok_iff.mpr again)
    exact Except.ok.inj same

/-- Differences associate to the left, and a product binds tighter. -/
theorem evaluate_eq_ok_iff_differences : ∃ tokens tree,
    (Lexes "8 - 4 - 2 * 3".toList tokens ∧
      ∀ another, Lexes "8 - 4 - 2 * 3".toList another → tokens = another) ∧
    (Derives 1 tokens tree ∧ ∀ another, Derives 1 tokens another → tree = another) ∧
    tree = .binary .subtract (.binary .subtract (.literal 8) (.literal 4))
      (.binary .multiply (.literal 2) (.literal 3)) ∧
    evaluate "8 - 4 - 2 * 3" = .ok (-2) := by
  have lexes : Lexes "8 - 4 - 2 * 3".toList
      [.number 8, .operator (.binary .subtract), .number 4, .operator (.binary .subtract),
        .number 2, .operator (.binary .multiply), .number 3] :=
    tokenize_eq_ok_iff.mp (by decide +kernel)
  have number : ∀ value : Int64, Derives operandLevel [.number value] (.literal value) :=
    fun _ => .literal
  have difference : Derives 9 [.number 8, .operator (.binary .subtract), .number 4]
      (.binary .subtract (.literal 8) (.literal 4)) :=
    .binary (by decide) ((number 8).loosen (by decide)) ((number 4).loosen (by decide))
  have product : Derives 10 [.number 2, .operator (.binary .multiply), .number 3]
      (.binary .multiply (.literal 2) (.literal 3)) :=
    .binary (by decide) ((number 2).loosen (by decide)) (number 3)
  have last : BinaryOp.subtract ∈ operatorsAt 9 := by decide
  have derives : Derives 1 _ _ := (Derives.binary last difference product).loosen (by decide)
  obtain ⟨value, tokensUnique, treeUnique⟩ := evaluate_eq_ok_iff "8 - 4 - 2 * 3"
  refine ⟨_, _, ⟨lexes, fun _ again => tokensUnique _ _ lexes again⟩,
    ⟨derives, fun _ again => treeUnique _ _ _ derives again⟩, rfl, ?_⟩
  refine (value (-2)).mpr ⟨_, _, lexes, derives, ?_, by decide⟩
  simp [Tree.Defined, BinaryOp.Divides]

end Multipass.Condition
