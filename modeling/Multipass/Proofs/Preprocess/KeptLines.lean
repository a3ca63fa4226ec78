import Multipass.Proofs.LineMap
import Multipass.Proofs.Macro.Expansion
import Multipass.Proofs.Preprocess.OneLine
import Multipass.Proofs.Preprocess.Seam

/-!
# What is kept of which line

A run keeps the lines of the compiler's directives as they are, and of each line of code its
expansion under the macros in force there. Each of them is one line, its origin is the number
of the line that it was, and the origins ascend.
-/

namespace Multipass.Preprocess

/-! ## The expansion of one line -/

/-- A segment with its macros expanded. Comments stay as they are, and so does code that
    cannot be expanded. -/
def expandedSegment (table : Macro.Table) : Comment.Segment → List Char
  | .comment text => text
  | .code text =>
    match Macro.expand table text with
    | .ok expansion => expansion
    | .error _ => text

/-- The expansion of a line, which begins inside a block comment or not. -/
def expandedText (table : Macro.Table) (inside : Bool) (line : List Char) : List Char :=
  (Comment.segments inside line).1.flatMap (expandedSegment table)

/-- Is no name outside the comments of a line that of a macro? -/
def IgnoresCode (table : Macro.Table) (inside : Bool) (line : List Char) : Prop :=
  ∀ text, .code text ∈ (Comment.segments inside line).1 → table.Ignores text

/-- A line that uses no macros is its own expansion. -/
theorem expandedText_of_ignoresCode {table : Macro.Table} {inside : Bool} {line : List Char}
    (ignores : IgnoresCode table inside line) : expandedText table inside line = line := by
  conv_rhs => rw [← Comment.flatMap_segments inside line]
  refine List.flatMap_congr fun segment member => ?_
  cases segment with
  | comment text => rfl
  | code text =>
    rw [expandedSegment, Macro.expand_of_ignores (ignores text member)]
    rfl

namespace State

variable (state : State) (number : Nat)

theorem expandSegments_text (segments : List Comment.Segment) :
    (state.expandSegments number segments).1 = segments.flatMap (expandedSegment state.table) := by
  fun_induction expandSegments state number segments with
  | case1 => rfl
  | case2 state text rest later final expanded ih =>
    rw [expanded] at ih
    rw [List.flatMap_cons, ← ih]
    rfl
  | case3 state text rest expansion expands later final expanded ih =>
    rw [expanded] at ih
    rw [List.flatMap_cons, ← ih, expandedSegment, expands]
  | case4 state text rest problem fails later final expanded ih =>
    rw [expanded, reportExpansion_table] at ih
    rw [List.flatMap_cons, ← ih, expandedSegment, fails]

/-- What a line of code becomes hangs on the macros in force and on the comment that may be
    open, and on nothing else of the state. -/
theorem codeLine_text (line : List Char) :
    (state.codeLine number line).1 = expandedText state.table state.insideComment line := by
  unfold codeLine
  split
  · rename_i empty
    refine (expandedText_of_ignoresCode ?_).symm
    intro text _
    exact Macro.Table.ignores_of_isEmpty empty text
  · exact expandSegments_text state number _

end State

/-! ## Where a run comes to -/

theorem mem_keepFrom_iff {number : Nat} {lines : List (List Char)} {kept : KeptLine} :
    kept ∈ keepFrom number lines ↔
      ∃ index text, lines[index]? = some text ∧ kept = ⟨number + index, text⟩ := by
  induction lines generalizing number with
  | nil => simp [keepFrom]
  | cons line rest ih =>
    rw [keepFrom, List.mem_cons, ih]
    constructor
    · rintro (rfl | ⟨index, text, found, rfl⟩)
      · exact ⟨0, line, rfl, rfl⟩
      · exact ⟨index + 1, text, found, by rw [Nat.add_assoc, Nat.add_comm 1]⟩
    · rintro ⟨index, text, found, rfl⟩
      cases index with
      | zero =>
        cases found
        exact .inl rfl
      | succ index => exact .inr ⟨index, text, found, by rw [Nat.add_assoc, Nat.add_comm 1]⟩

/-- The lines of a directive make it up, whatever comes after them. -/
theorem Directive.joinContinuations_taken {text : List Char} {following : List (List Char)}
    {joined : List Char × List (List Char) × List (List Char)}
    (joins : joinContinuations text following = joined) (more : joined.2.2 ≠ []) :
    joinContinuations text joined.2.1 = (joined.1, joined.2.1, []) ∧
      joined.1.getLast? ≠ some '\\' := by
  subst joins
  induction following generalizing text with
  | nil => exact absurd rfl more
  | cons next rest ih =>
    by_cases last : text.getLast? = some '\\'
    · simp only [joinContinuations, if_pos last] at more ⊢
      obtain ⟨same, ended⟩ := ih more
      exact ⟨by rw [same], ended⟩
    · rw [joinContinuations, if_neg last, joinContinuations]
      exact ⟨rfl, last⟩

section Runs

variable {start state : State} {first number : Nat} {lines front rest : List (List Char)}
  {line : List Char} {kept : KeptLine}

theorem endsOpen_append_of_closed (closed : endsOpen start first front = false)
    (back : List (List Char)) :
    endsOpen start first (front ++ back) =
      endsOpen (run start first front).2 (first + front.length) back := by
  fun_induction run start first front with
  | case1 => rfl
  | case2 state number line rest marked joined _ directive here later final ran ih =>
    rw [endsOpen, if_pos marked] at closed
    simp only [Bool.or_eq_false_iff] at closed
    have lengths : number + 1 + joined.2.1.length + joined.2.2.length =
        number + (line :: rest).length := Directive.number_after _ _ _ _
    have remaining := ih closed.2
    rw [ran, lengths] at remaining
    have stays : Directive.goesOn (joined.1, joined.2.1, joined.2.2 ++ back) = false := by
      have ended := closed.1
      simp only [Directive.goesOn, Bool.and_eq_false_iff, List.isEmpty_eq_false_iff] at ended ⊢
      exact ended.imp_left (List.append_ne_nil_of_left_ne_nil · back)
    rw [List.cons_append, endsOpen, if_pos marked]
    simp only [Directive.joinContinuations_of_ended closed.1 back]
    simp only [joined, directive] at remaining stays
    rw [stays, Bool.false_or, remaining]
  | case3 state number line rest plain active text expanded code later final ran ih =>
    rw [endsOpen, if_neg plain, if_pos active, code] at closed
    have remaining := ih closed
    rw [ran, Nat.add_assoc, Nat.add_comm 1] at remaining
    rw [List.cons_append, endsOpen, if_neg plain, if_pos active, code, remaining]
    rfl
  | case4 state number line rest plain inactive ih =>
    rw [endsOpen, if_neg plain, if_neg inactive] at closed
    have remaining := ih closed
    rw [Nat.add_assoc, Nat.add_comm 1] at remaining
    rw [List.cons_append, endsOpen, if_neg plain, if_neg inactive, remaining]
    rfl

/-- A run over lines comes to the line with a number in some state, and not in the middle of
    a directive. -/
def Reaches (start : State) (first : Nat) (lines : List (List Char)) (state : State)
    (number : Nat) (line : List Char) (rest : List (List Char)) : Prop :=
  ∃ front, lines = front ++ line :: rest ∧ number = first + front.length ∧
    endsOpen start first front = false ∧ (run start first front).2 = state

theorem reaches_first (start : State) (first : Nat) (line : List Char)
    (rest : List (List Char)) : Reaches start first (line :: rest) start first line rest := by
  refine ⟨[], rfl, rfl, ?_, ?_⟩
  · rw [endsOpen]
  · rw [run]

theorem Reaches.after {back : List (List Char)} (closed : endsOpen start first front = false)
    (reaches : Reaches (run start first front).2 (first + front.length) back state number line
      rest) : Reaches start first (front ++ back) state number line rest := by
  obtain ⟨between, rfl, rfl, closedLater, rfl⟩ := reaches
  refine ⟨front ++ between, (List.append_assoc _ _ _).symm, ?_, ?_, ?_⟩
  · rw [List.length_append, Nat.add_assoc]
  · rw [endsOpen_append_of_closed closed, closedLater]
  · rw [run_append_of_closed closed]

/-- Behind the lines of a directive that other lines follow, a run goes on with the state that
    the directive leaves. -/
theorem run_directive_alone
    (marked : (!state.insideComment && Directive.isDirectiveLine line) = true)
    {joined : List Char × List (List Char) × List (List Char)}
    (joins : Directive.joinContinuations (Text.trim line) rest = joined) (more : joined.2.2 ≠ []) :
    endsOpen state number (line :: joined.2.1) = false ∧
      (run state number (line :: joined.2.1)).2 =
        state.directive number (Directive.ofText joined.1) := by
  obtain ⟨same, ended⟩ := Directive.joinContinuations_taken joins more
  constructor
  · rw [endsOpen, if_pos marked]
    simp only [same]
    simp [Directive.goesOn, ended, endsOpen]
  · rw [run_directive marked same, run]

/-- Behind a line of code a run goes on with the state that the line leaves. -/
theorem run_code_alone (plain : ¬ (!state.insideComment && Directive.isDirectiveLine line) = true)
    (active : state.active = true) :
    endsOpen state number [line] = false ∧
      (run state number [line]).2 = (state.codeLine number line).2 := by
  constructor
  · rw [endsOpen, if_neg plain, if_pos active, endsOpen]
  · rw [run_code plain active, run]

/-- Behind a line of code that is left out a run goes on as before it. -/
theorem run_skipped_alone (plain : ¬ (!state.insideComment && Directive.isDirectiveLine line) = true)
    (inactive : ¬ state.active = true) :
    endsOpen state number [line] = false ∧ (run state number [line]).2 = state := by
  constructor
  · rw [endsOpen, if_neg plain, if_neg inactive, endsOpen]
  · rw [run_skipped plain inactive, run]

/-- A line of a directive that is the compiler's, where the text is not left out. -/
inductive IsPassed (start : State) (first : Nat) (lines : List (List Char)) : KeptLine → Prop where
  | intro {state : State} {number index : Nat} {line joined text : List Char}
      {rest taken remaining : List (List Char)} :
      Reaches start first lines state number line rest →
      (!state.insideComment && Directive.isDirectiveLine line) = true →
      Directive.joinContinuations (Text.trim line) rest = (joined, taken, remaining) →
      Directive.ofText joined = .foreign →
      state.active = true →
      (line :: taken)[index]? = some text →
      IsPassed start first lines ⟨number + index, text⟩

/-- A line of code that is not left out, which a run comes to in some state. -/
structure IsCode (start : State) (first : Nat) (lines : List (List Char)) (state : State)
    (number : Nat) (line : List Char) : Prop where
  reaches : ∃ rest, Reaches start first lines state number line rest
  plain : (!state.insideComment && Directive.isDirectiveLine line) = false
  active : state.active = true

/-- What a run keeps: the lines of a directive that is the compiler's as they are, and of a line
    of code its expansion under the macros in force there. -/
inductive IsKept (start : State) (first : Nat) (lines : List (List Char)) : KeptLine → Prop where
  | passed {kept : KeptLine} : IsPassed start first lines kept → IsKept start first lines kept
  | expanded {state : State} {number : Nat} {line : List Char} :
      IsCode start first lines state number line →
      IsKept start first lines ⟨number, expandedText state.table state.insideComment line⟩

theorem Reaches.getElem? (reaches : Reaches start first lines state number line rest) :
    lines[number - first]? = some line := by
  obtain ⟨front, rfl, rfl, -, -⟩ := reaches
  simp

/-- A line of a directive that is the compiler's is kept as it is. -/
theorem IsPassed.verbatim (passed : IsPassed start first lines kept) :
    lines[kept.origin - first]? = some kept.text := by
  obtain ⟨⟨front, rfl, rfl, -, -⟩, -, joins, -, -, found⟩ := passed
  rename_i index line joined text rest taken remaining
  have whole := Directive.joinContinuations_append (Text.trim line) rest
  rw [joins] at whole
  rw [← whole, Nat.add_assoc, Nat.add_sub_cancel_left, List.getElem?_append_right (Nat.le_add_right _ _),
    Nat.add_sub_cancel_left, ← List.cons_append,
    List.getElem?_append_left (List.getElem?_eq_some_iff.mp found).1, found]

theorem IsKept.after {back : List (List Char)} (closed : endsOpen start first front = false)
    (isKept : IsKept (run start first front).2 (first + front.length) back kept) :
    IsKept start first (front ++ back) kept := by
  rcases isKept with ⟨reaches, marked, joins, foreign, active, found⟩ | ⟨⟨rest, reaches⟩, plain, active⟩
  · exact .passed (.intro (reaches.after closed) marked joins foreign active found)
  · exact .expanded ⟨⟨rest, reaches.after closed⟩, plain, active⟩

theorem isKept_of_mem_run (member : kept ∈ (run start first lines).1) :
    IsKept start first lines kept := by
  fun_induction run start first lines with
  | case1 => exact absurd member List.not_mem_nil
  | case2 state number line rest marked joined _ directive here later final ran ih =>
    rcases List.mem_append.mp member with ofDirective | ofLater
    · simp only [here] at ofDirective
      split at ofDirective
      · rename_i owned
        rw [Bool.and_eq_true, decide_eq_true_eq] at owned
        obtain ⟨index, text, found, rfl⟩ := mem_keepFrom_iff.mp ofDirective
        exact .passed (.intro (reaches_first state number line rest) marked rfl owned.1 owned.2 found)
      · exact absurd ofDirective List.not_mem_nil
    · have whole : joined.2.1 ++ joined.2.2 = rest := Directive.joinContinuations_append _ _
      have more : joined.2.2 ≠ [] := by
        intro nothing
        have empty : later = [] := by
          rw [nothing, run] at ran
          exact (congrArg Prod.fst ran).symm
        rw [empty] at ofLater
        exact absurd ofLater List.not_mem_nil
      obtain ⟨closed, goesOn⟩ := @run_directive_alone state number rest line marked joined rfl more
      have kept := ih (by rw [ran]; exact ofLater)
      rw [← goesOn, Nat.add_assoc, Nat.add_comm 1] at kept
      rw [← whole, ← List.cons_append]
      exact IsKept.after closed kept
  | case3 state number line rest plain active text after code later final ran ih =>
    rcases List.mem_cons.mp member with rfl | ofLater
    · have expansion : text = expandedText state.table state.insideComment line := by
        rw [← State.codeLine_text state number line, code]
      rw [expansion]
      exact .expanded ⟨⟨rest, reaches_first state number line rest⟩, Bool.not_eq_true _ ▸ plain, active⟩
    · obtain ⟨closed, goesOn⟩ := @run_code_alone state number line plain active
      simp only [code] at goesOn
      have kept := ih (by rw [ran]; exact ofLater)
      rw [← goesOn] at kept
      exact IsKept.after closed kept
  | case4 state number line rest plain inactive ih =>
    obtain ⟨closed, goesOn⟩ := @run_skipped_alone state number line plain inactive
    have kept := ih member
    rw [← goesOn] at kept
    exact IsKept.after closed kept

theorem mem_run_of_isKept (isKept : IsKept start first lines kept) :
    kept ∈ (run start first lines).1 := by
  rcases isKept with ⟨reaches, marked, joins, foreign, active, found⟩ | ⟨⟨rest, reaches⟩, plain, active⟩
  · obtain ⟨front, rfl, rfl, closed, rfl⟩ := reaches
    rw [run_append_of_closed closed, run_directive marked joins,
      if_pos (by rw [foreign, active]; rfl)]
    refine List.mem_append_right _ (List.mem_append_left _ ?_)
    exact mem_keepFrom_iff.mpr ⟨_, _, found, rfl⟩
  · obtain ⟨front, rfl, rfl, closed, rfl⟩ := reaches
    rw [run_append_of_closed closed, run_code (by rw [plain]; exact Bool.false_ne_true) active,
      State.codeLine_text]
    exact List.mem_append_right _ List.mem_cons_self

/-- The lines that a run keeps, and no others. -/
theorem mem_run_iff : kept ∈ (run start first lines).1 ↔ IsKept start first lines kept :=
  ⟨isKept_of_mem_run, mem_run_of_isKept⟩

/-! ## Origins ascend -/

theorem keepFrom_origins_ascending (number : Nat) (lines : List (List Char)) :
    (keepFrom number lines).Pairwise (·.origin < ·.origin) := by
  induction lines generalizing number with
  | nil => exact .nil
  | cons line rest ih =>
    refine List.pairwise_cons.mpr ⟨?_, ih (number + 1)⟩
    intro kept member
    obtain ⟨index, text, -, rfl⟩ := mem_keepFrom_iff.mp member
    exact Nat.lt_of_lt_of_le (Nat.lt_succ_self number) (Nat.le_add_right _ _)

theorem run_origins_ascending (start : State) (first : Nat) (lines : List (List Char)) :
    (run start first lines).1.Pairwise (·.origin < ·.origin) := by
  fun_induction run start first lines with
  | case1 => exact .nil
  | case2 state number line rest marked joined _ directive here later final ran ih =>
    rw [ran] at ih
    have beyond : ∀ kept ∈ later, number + 1 + joined.2.1.length ≤ kept.origin := by
      intro kept member
      exact (origin_bounds (by rw [ran]; exact member)).1
    refine List.pairwise_append.mpr ⟨?_, ih, ?_⟩
    · simp only [here]
      split
      · exact keepFrom_origins_ascending number _
      · exact .nil
    · intro kept ofDirective other ofLater
      have bound := beyond other ofLater
      simp only [here] at ofDirective
      split at ofDirective
      · obtain ⟨index, text, found, rfl⟩ := mem_keepFrom_iff.mp ofDirective
        have inside := (List.getElem?_eq_some_iff.mp found).1
        rw [List.length_cons] at inside
        show number + index < other.origin
        omega
      · exact absurd ofDirective List.not_mem_nil
  | case3 state number line rest plain active text after code later final ran ih =>
    rw [ran] at ih
    refine List.pairwise_cons.mpr ⟨?_, ih⟩
    intro kept member
    exact (origin_bounds (by rw [ran]; exact member)).1
  | case4 state number line rest plain inactive ih => exact ih

end Runs

/-! ## The outcome -/

/-- The outcome for a text with the given lines. The line map has the lines of the output from
    one on as its keys; each goes to the one line of the text that it was. -/
structure Outcome.LinesUp (outcome : Outcome) (lines : List (List Char)) : Prop where
  keys : outcome.lineMap.toList.map Prod.fst = List.range' 1 outcome.kept.length
  values : outcome.lineMap.toList.map Prod.snd = outcome.kept.map (·.origin)
  ascending : (outcome.kept.map (·.origin)).Pairwise (· < ·)
  bounds : ∀ kept ∈ outcome.kept, 1 ≤ kept.origin ∧ kept.origin ≤ lines.length
  code : outcome.code.toList = Text.unlines (outcome.kept.map (·.text))
  oneLine : ∀ kept ∈ outcome.kept, '\n' ∉ kept.text
  kept_iff : ∀ kept, kept ∈ outcome.kept ↔ IsKept .initial 1 lines kept
  passed : ∀ kept, IsPassed .initial 1 lines kept → lines[kept.origin - 1]? = some kept.text
  coded : ∀ state number line, IsCode .initial 1 lines state number line →
    lines[number - 1]? = some line ∧
      ⟨number, expandedText state.table state.insideComment line⟩ ∈ outcome.kept
  unchanged : ∀ state number line, IsCode .initial 1 lines state number line →
    IgnoresCode state.table state.insideComment line → ⟨number, line⟩ ∈ outcome.kept

end Multipass.Preprocess

namespace Multipass

open Preprocess

/-- What the preprocessor makes of a text lines up with the lines of the text. -/
theorem preprocess_linesUp (source : String) :
    (preprocess source).LinesUp (Text.lines source.toList) := by
  have kept_iff : ∀ kept, kept ∈ (preprocess source).kept ↔
      IsKept .initial 1 (Text.lines source.toList) kept := fun _ => mem_run_iff
  have coded : ∀ state number line,
      IsCode .initial 1 (Text.lines source.toList) state number line →
        ⟨number, expandedText state.table state.insideComment line⟩ ∈ (preprocess source).kept :=
    fun state number line isCode => (kept_iff _).mpr (.expanded isCode)
  refine ⟨?_, LineMap.values_numbered 1 _, ?_, ?_, String.toList_ofList, ?_, kept_iff,
    fun kept => IsPassed.verbatim, ?_, ?_⟩
  · rw [← List.length_map (·.origin)]
    exact LineMap.keys_numbered 1 _
  · exact List.pairwise_map.mpr (run_origins_ascending .initial 1 _)
  · intro kept member
    have bounds := origin_bounds member
    omega
  · intro kept member
    exact outcomeOf_oneLine source.toList _ (List.mem_map_of_mem member)
  · intro state number line isCode
    obtain ⟨rest, reaches⟩ := isCode.reaches
    exact ⟨reaches.getElem?, coded state number line isCode⟩
  · intro state number line isCode ignores
    have expansion := coded state number line isCode
    rwa [expandedText_of_ignoresCode ignores] at expansion

end Multipass
