import Multipass.Proofs.Condition.Arithmetic

/-!
# The grammar of conditions

A row of tokens is derived at a level: operands bind tightest, and below them are ten
levels of operators with two operands, each of which associates to the left. `Reads` is
how a tree is found from the front of a row, operand by operand. The two agree, so that no
row has two derivations.
-/

namespace Multipass.Condition

/-- The syntax of a condition. Parentheses are kept, so that a tree has one spelling. -/
inductive Tree where
  | literal (value : Int64)
  | name
  | group (inner : Tree)
  | front (op : FrontOp) (operand : Tree)
  | binary (op : BinaryOp) (left right : Tree)
  deriving DecidableEq, Repr

/-- The operators of each level, from those that bind least. -/
def operatorsAt : Nat → List BinaryOp
  | 1 => [.or]
  | 2 => [.and]
  | 3 => [.bitOr]
  | 4 => [.bitXor]
  | 5 => [.bitAnd]
  | 6 => [.equal, .notEqual]
  | 7 => [.less, .greater, .lessEqual, .greaterEqual]
  | 8 => [.shiftLeft, .shiftRight]
  | 9 => [.add, .subtract]
  | 10 => [.multiply, .divide, .remainder]
  | _ => []

/-- The level of operands, above that of every operator with two operands. -/
def operandLevel : Nat := 11

/-- A row of tokens has a tree at a level. The right operand of an operator is of a
    tighter level than the operator, and the left one need not be. -/
inductive Derives : Nat → List Token → Tree → Prop where
  | literal {value : Int64} : Derives operandLevel [.number value] (.literal value)
  | name : Derives operandLevel [.name] .name
  | group {tokens : List Token} {inner : Tree} :
      Derives 1 tokens inner →
      Derives operandLevel (.opening :: tokens ++ [.closing]) (.group inner)
  | front {op : FrontOp} {tokens : List Token} {operand : Tree} :
      Derives operandLevel tokens operand →
      Derives operandLevel (.operator op.operator :: tokens) (.front op operand)
  | binary {level : Nat} {op : BinaryOp} {left right : List Token} {first second : Tree} :
      op ∈ operatorsAt level → Derives level left first → Derives (level + 1) right second →
      Derives level (left ++ .operator (.binary op) :: right) (.binary op first second)
  | tighter {level : Nat} {tokens : List Token} {tree : Tree} :
      level < operandLevel → Derives (level + 1) tokens tree → Derives level tokens tree

theorem mem_operatorsAt {level : Nat} {op : BinaryOp} :
    op ∈ operatorsAt level ↔ op.precedence = level := by
  constructor
  · intro member
    unfold operatorsAt at member
    split at member <;> simp only [List.mem_cons, List.not_mem_nil, or_false] at member
    all_goals grind [BinaryOp.precedence]
  · rintro rfl
    cases op <;> decide

theorem precedence_lt (op : BinaryOp) : op.precedence < operandLevel := by
  cases op <;> decide

namespace Derives

variable {level low : Nat} {tokens : List Token} {tree : Tree}

theorem level_le (derives : Derives level tokens tree) : level ≤ operandLevel := by
  cases derives with
  | literal | name | group _ | front _ => exact Nat.le_refl _
  | binary member _ _ => exact Nat.le_of_lt (mem_operatorsAt.mp member ▸ precedence_lt _)
  | tighter below _ => exact Nat.le_of_lt below

/-- What is derived at a level is derived at every looser one. -/
theorem loosen (derives : Derives level tokens tree) (looser : low ≤ level) :
    Derives low tokens tree := by
  have bound := derives.level_le
  induction looser with
  | refl => exact derives
  | @step level _ ih => exact ih (.tighter bound derives) (Nat.le_of_lt bound)

end Derives

/-! ## Reading from the front -/

/-- What is being read: an operand, a row of operands joined by operators of at least a
    level, or the rest of such a row after a tree. -/
inductive Stage where
  | operand
  | expression (level : Nat)
  | climb (level : Nat) (left : Tree)

/-- A row does not go on with an operator of at least a level. -/
def Stops (level : Nat) (tokens : List Token) : Prop :=
  ∀ op rest, tokens = .operator (.binary op) :: rest → op.precedence < level

/-- The tree that is read from the front of a row of tokens, and the tokens after it. -/
inductive Reads : Stage → List Token → Tree → List Token → Prop where
  | literal {value : Int64} {rest : List Token} :
      Reads .operand (.number value :: rest) (.literal value) rest
  | name {rest : List Token} : Reads .operand (.name :: rest) .name rest
  | group {tokens rest : List Token} {inner : Tree} :
      Reads (.expression 1) tokens inner (.closing :: rest) →
      Reads .operand (.opening :: tokens) (.group inner) rest
  | front {op : FrontOp} {spelled : Operator} {tokens rest : List Token} {operand : Tree} :
      spelled = op.operator → Reads .operand tokens operand rest →
      Reads .operand (.operator spelled :: tokens) (.front op operand) rest
  | expression {level : Nat} {tokens between rest : List Token} {left tree : Tree} :
      Reads .operand tokens left between → Reads (.climb level left) between tree rest →
      Reads (.expression level) tokens tree rest
  | goOn {level : Nat} {op : BinaryOp} {tokens between rest : List Token}
      {left right tree : Tree} :
      level ≤ op.precedence → Reads (.expression (op.precedence + 1)) tokens right between →
      Reads (.climb level (.binary op left right)) between tree rest →
      Reads (.climb level left) (.operator (.binary op) :: tokens) tree rest
  | stop {level : Nat} {left : Tree} {tokens : List Token} :
      Stops level tokens → Reads (.climb level left) tokens left tokens

theorem FrontOp.operator_injective {first second : FrontOp}
    (same : first.operator = second.operator) : first = second := by
  cases first <;> cases second <;> first | rfl | cases same

namespace Reads

variable {stage : Stage} {tokens rest other : List Token} {tree another : Tree}

/-- What is read is determined by the tokens. -/
theorem unique (reads : Reads stage tokens tree rest) (again : Reads stage tokens another other) :
    tree = another ∧ rest = other := by
  induction reads generalizing another other with
  | literal =>
    cases again
    exact ⟨rfl, rfl⟩
  | name =>
    cases again
    exact ⟨rfl, rfl⟩
  | group _ ih =>
    cases again with
    | group inner =>
      obtain ⟨rfl, same⟩ := ih inner
      exact ⟨rfl, (List.cons.inj same).2⟩
  | front spelled _ ih =>
    cases again with
    | front respelled operand =>
      obtain ⟨rfl, rfl⟩ := ih operand
      rw [FrontOp.operator_injective (spelled.symm.trans respelled)]
      exact ⟨rfl, rfl⟩
  | expression _ _ operandIh climbIh =>
    cases again with
    | expression operand climbs =>
      obtain ⟨rfl, rfl⟩ := operandIh operand
      exact climbIh climbs
  | goOn above _ _ rightIh climbIh =>
    cases again with
    | goOn _ right climbs =>
      obtain ⟨rfl, rfl⟩ := rightIh right
      exact climbIh climbs
    | stop stops => exact absurd (stops _ _ rfl) (Nat.not_lt.mpr above)
  | stop stops =>
    cases again with
    | goOn above _ _ => exact absurd (stops _ _ rfl) (Nat.not_lt.mpr above)
    | stop _ => exact ⟨rfl, rfl⟩

end Reads

/-! ## Derivations and readings -/

theorem Stops.mono {level high : Nat} {tokens : List Token} (stops : Stops level tokens)
    (looser : level ≤ high) : Stops high tokens :=
  fun op rest same => Nat.lt_of_lt_of_le (stops op rest same) looser

/-- A row that stops above the level of a derivation stops that derivation, and reading
    goes on from its tree. The induction is on the derivation; what is read of the row in
    front of an operator is handed on to what is read after it. -/
theorem Derives.reads {level : Nat} {tokens : List Token} {tree : Tree}
    (derives : Derives level tokens tree) :
    (level = operandLevel → ∀ rest, Reads .operand (tokens ++ rest) tree rest) ∧
      ∀ {least rest result last}, least ≤ level → Stops (level + 1) rest →
        Reads (.climb least tree) rest result last →
        Reads (.expression least) (tokens ++ rest) result last := by
  induction derives with
  | literal => exact ⟨fun _ rest => .literal, fun _ _ climbs => .expression .literal climbs⟩
  | name => exact ⟨fun _ rest => .name, fun _ _ climbs => .expression .name climbs⟩
  | @group tokens inner _ ih =>
    have operand : ∀ rest,
        Reads .operand (.opening :: tokens ++ [.closing] ++ rest) (.group inner) rest := by
      intro rest
      have stops : ∀ level, Stops level (.closing :: rest) := by
        intro level op later same
        cases same
      have reads := Reads.group (ih.2 (Nat.le_refl 1) (stops 2) (.stop (stops 1)))
      simpa using reads
    exact ⟨fun _ => operand, fun _ _ climbs => .expression (operand _) climbs⟩
  | @front op tokens inner _ ih =>
    have operand : ∀ rest,
        Reads .operand (.operator op.operator :: tokens ++ rest) (.front op inner) rest :=
      fun rest => .front rfl (ih.1 rfl rest)
    exact ⟨fun _ => operand, fun _ _ climbs => .expression (operand _) climbs⟩
  | @binary level op left right first second member _ _ leftIh rightIh =>
    obtain rfl := mem_operatorsAt.mp member
    refine ⟨fun same => absurd same (Nat.ne_of_lt (precedence_lt op)), ?_⟩
    intro least rest result last looser stops climbs
    have right := rightIh.2 (Nat.le_refl _) (stops.mono (Nat.le_succ _)) (.stop stops)
    rw [List.append_assoc]
    refine leftIh.2 looser ?_ (.goOn looser right climbs)
    intro op rest same
    cases same
    exact Nat.lt_succ_self _
  | tighter below _ ih =>
    refine ⟨fun same => absurd same (Nat.ne_of_lt below), ?_⟩
    intro least rest result last looser stops climbs
    exact ih.2 (Nat.le_succ_of_le looser) (stops.mono (Nat.le_succ _)) climbs

/-- What reading from the front says about derivations. The rest of a row is read after a
    tree that was derived at a level above which the row does not go on. -/
def Stage.Sound (tokens : List Token) (tree : Tree) (rest : List Token) : Stage → Prop
  | .operand => ∃ used, tokens = used ++ rest ∧ Derives operandLevel used tree
  | .expression level => level ≤ operandLevel →
      ∃ used, tokens = used ++ rest ∧ Derives level used tree ∧ Stops level rest
  | .climb level left => ∀ before strength, level ≤ strength → Derives strength before left →
      Stops (strength + 1) tokens →
      ∃ used, tokens = used ++ rest ∧ Derives level (before ++ used) tree ∧ Stops level rest

theorem stops_of_level {tokens : List Token} : Stops (operandLevel + 1) tokens :=
  fun op _ _ => Nat.lt_succ_of_lt (precedence_lt op)

theorem Reads.sound {stage : Stage} {tokens rest : List Token} {tree : Tree}
    (reads : Reads stage tokens tree rest) : stage.Sound tokens tree rest := by
  induction reads with
  | literal => exact ⟨[_], rfl, .literal⟩
  | name => exact ⟨[_], rfl, .name⟩
  | @group tokens rest inner _ ih =>
    obtain ⟨used, rfl, derives, -⟩ := ih (by decide)
    exact ⟨.opening :: used ++ [.closing], by simp, .group derives⟩
  | front spelled _ ih =>
    obtain ⟨used, rfl, derives⟩ := ih
    subst spelled
    exact ⟨_ :: used, rfl, .front derives⟩
  | @expression level tokens between rest left tree _ _ operandIh climbIh =>
    intro bound
    obtain ⟨before, rfl, derives⟩ := operandIh
    obtain ⟨used, rfl, whole, stops⟩ := climbIh before operandLevel bound derives stops_of_level
    exact ⟨before ++ used, (List.append_assoc _ _ _).symm, whole, stops⟩
  | @goOn level op tokens between rest left right tree above _ _ rightIh climbIh =>
    intro before strength looser derives stops
    have binds : op.precedence ≤ strength := Nat.le_of_lt_succ (stops op tokens rfl)
    obtain ⟨second, rfl, rightDerives, rightStops⟩ := rightIh (precedence_lt op)
    have joined := Derives.binary (mem_operatorsAt.mpr rfl) (derives.loosen binds) rightDerives
    obtain ⟨used, rfl, whole, last⟩ := climbIh _ op.precedence above joined rightStops
    refine ⟨.operator (.binary op) :: second ++ used, ?_, ?_, last⟩
    · simp
    · simpa using whole
  | stop stops =>
    intro before strength looser derives _
    exact ⟨[], rfl, by simpa using derives.loosen looser, stops⟩

theorem stops_nil (level : Nat) : Stops level [] := by
  intro op rest same
  cases same

/-- A row of tokens is derived as a condition when it is read as one. -/
theorem derives_iff_reads {tokens : List Token} {tree : Tree} :
    Derives 1 tokens tree ↔ Reads (.expression 1) tokens tree [] := by
  constructor
  · intro derives
    have reads := derives.reads.2 (Nat.le_refl 1) (stops_nil 2) (.stop (stops_nil 1))
    rwa [List.append_nil] at reads
  · intro reads
    obtain ⟨used, same, derives, -⟩ := reads.sound (by decide)
    rwa [same, List.append_nil]

/-- No row of tokens has two derivations as a condition. -/
theorem Derives.unique {tokens : List Token} {tree another : Tree}
    (derives : Derives 1 tokens tree) (again : Derives 1 tokens another) : tree = another :=
  ((derives_iff_reads.mp derives).unique (derives_iff_reads.mp again)).1

end Multipass.Condition
