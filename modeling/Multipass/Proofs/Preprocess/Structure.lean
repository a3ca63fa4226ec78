import Mathlib.Data.List.Induction
import Mathlib.Data.List.Nodup
import Multipass.Proofs.Located
import Multipass.Proofs.Preprocess.Brackets
import Multipass.Proofs.Preprocess.Directive
import Multipass.Proofs.Preprocess.Events
import Multipass.Proofs.Preprocess.Prefix

/-!
# Errors of structure

A run keeps a stack of the groups that are open and reports what does not fit it. What it
reports in this way is what is wrong with the brackets that the conditional directives are:
every bracket that is matched with nothing is reported, each once, and so is every directive
that stands outside of all groups or behind the last branch of its group. Whether the text
around a directive is left out makes no difference.
-/

namespace Multipass.Preprocess

/-- What a directive does to the groups. -/
def Directive.mark? : Directive → Option Mark
  | .openNamed opener _ _ => some (.opens opener)
  | .openCondition _ => some (.opens .ifCondition)
  | .orCondition _ => some .next
  | .otherwise => some .last
  | .close => some .closes
  | .nothing | .define _ | .undefine _ | .announce _ | .foreign => none

/-- What an event does to the groups; a line of code leaves them as they are. -/
def Event.mark? : Event → Option Mark
  | .directive met => met.mark?
  | .code _ => none

/-- The conditional directives among the events of a run, in order. -/
def marksOf (events : List (Located Event)) : Marks :=
  events.filterMap fun event => event.content.mark?.map (⟨event.line, ·⟩)

/-- Is the problem about a conditional directive that is missing or one too many? -/
def Problem.isStructural : Problem → Bool
  | .unterminatedGroup _ | .elifOutsideGroup | .elifAfterElse | .elseOutsideGroup
  | .duplicateElse | .endifOutsideGroup => true
  | _ => false

/-- A directive is misplaced behind these marks: it needs a group and there is none, or it begins
    a branch behind the last one. -/
inductive IsMisplaced (before : Marks) : Mark → Problem → Prop where
  | next : ¬ IsInGroup before → IsMisplaced before .next .elifOutsideGroup
  | nextBehindLast : IsBehindLast before → IsMisplaced before .next .elifAfterElse
  | last : ¬ IsInGroup before → IsMisplaced before .last .elseOutsideGroup
  | secondLast : IsBehindLast before → IsMisplaced before .last .duplicateElse
  | closes : ¬ IsInGroup before → IsMisplaced before .closes .endifOutsideGroup

/-- One of these marks is misplaced behind those in front of it. -/
def HasMisplaced (marks : Marks) (error : Located Problem) : Prop :=
  ∃ before mark after, marks = before ++ mark :: after ∧ error.line = mark.line ∧
    IsMisplaced before mark.content error.content

/-- One of these marks opens a group that those behind it do not close. -/
def HasUnterminated (marks : Marks) (error : Located Problem) : Prop :=
  ∃ before opener after, marks = before ++ ⟨error.line, .opens opener⟩ :: after ∧
    ¬ IsClosed after ∧ error.content = .unterminatedGroup opener

/-- The problems of a text in the order in which they are found: those of the events, in their
    order, and then the groups that are still open. -/
def detected (text : List Char) : List (Located Problem) :=
  (stateAfter (eventsOf text)).problems ++ unterminated (stateAfter (eventsOf text))

/-! ## Groups and marks -/

/-- The groups that are open behind some marks. -/
inductive Charts : Marks → List Group → Prop where
  | outside {marks : Marks} : IsSettled marks → Charts marks []
  | inside {front inside : Marks} {group : Group} {outer : List Group} :
      Charts front outer → Balanced inside → (group.seenElse = true ↔ HasLast inside) →
        Charts (front ++ ⟨group.openedAt, .opens group.opener⟩ :: inside) (group :: outer)

namespace Charts

variable {marks : Marks} {group : Group} {groups outer : List Group}

theorem not_isInGroup (charts : Charts marks []) : ¬ IsInGroup marks := by
  cases charts with
  | outside settled => exact settled.not_isInGroup

theorem exists_isInnermost (charts : Charts marks (group :: outer)) :
    ∃ opening inside, IsInnermost marks opening inside ∧
      (group.seenElse = true ↔ HasLast inside) := by
  cases charts with
  | inside front balanced last => exact ⟨_, _, ⟨⟨_, rfl⟩, ⟨_, rfl⟩, balanced⟩, last⟩

theorem isInGroup (charts : Charts marks (group :: outer)) : IsInGroup marks := by
  obtain ⟨opening, inside, innermost, -⟩ := charts.exists_isInnermost
  exact ⟨opening, inside, innermost⟩

theorem isBehindLast_iff (charts : Charts marks (group :: outer)) :
    IsBehindLast marks ↔ group.seenElse = true := by
  obtain ⟨opening, inside, innermost, last⟩ := charts.exists_isInnermost
  rw [last]
  constructor
  · rintro ⟨_, _, other, behind⟩
    rw [(innermost.unique other).2]
    exact behind
  · exact fun behind => ⟨opening, inside, innermost, behind⟩

/-- Outside of all groups, only an opening leads into one. -/
theorem aside (charts : Charts marks []) {mark : Mark} (other : ∀ opener, mark ≠ .opens opener)
    (line : Nat) : Charts (marks ++ [⟨line, mark⟩]) [] := by
  cases charts with
  | outside settled =>
    cases mark with
    | opens opener => exact absurd rfl (other opener)
    | next => exact .outside (settled.append (.branch line (.inl rfl)))
    | last => exact .outside (settled.append (.branch line (.inr rfl)))
    | closes => exact .outside (settled.surplus .nil)

theorem enter (charts : Charts marks groups) (line : Nat) (opener : Opener)
    (parentActive taken active : Bool) : Charts (marks ++ [⟨line, .opens opener⟩])
      (⟨opener, line, parentActive, taken, active, false⟩ :: groups) := by
  have first : false = true ↔ HasLast [] := by simp [HasLast]
  exact @Charts.inside _ _ ⟨opener, line, parentActive, taken, active, false⟩ _ charts .nil first

theorem next (charts : Charts marks (group :: outer)) (line : Nat) (taken active : Bool) :
    Charts (marks ++ [⟨line, .next⟩]) ({ group with taken, active } :: outer) := by
  cases charts with
  | @inside _ inside _ _ charts balanced last =>
    rw [List.append_assoc, List.cons_append]
    have whole := balanced.append (.branch line (.inl rfl))
    have still : group.seenElse = true ↔ HasLast (inside ++ [⟨line, .next⟩]) :=
      last.trans (hasLast_concat_iff (by simp) line).symm
    exact @Charts.inside _ _ { group with taken, active } _ charts whole still

theorem last (charts : Charts marks (group :: outer)) (line : Nat) (taken active : Bool) :
    Charts (marks ++ [⟨line, .last⟩])
      ({ group with taken, active, seenElse := true } :: outer) := by
  cases charts with
  | inside charts balanced _ =>
    rw [List.append_assoc, List.cons_append]
    have whole := balanced.append (.branch line (.inr rfl))
    exact @Charts.inside _ _ { group with taken, active, seenElse := true } _ charts whole
      (iff_of_true rfl (balanced.hasLast line))

theorem close (charts : Charts marks (group :: outer)) (line : Nat) :
    Charts (marks ++ [⟨line, .closes⟩]) outer := by
  cases charts with
  | @inside front inside _ _ charts balanced _ =>
    have whole := balanced.group group.openedAt line group.opener
    rw [List.append_assoc, List.cons_append]
    cases charts with
    | outside settled => exact .outside (settled.append whole)
    | inside charts around last =>
      rw [List.append_assoc, List.cons_append]
      refine .inside charts (around.append whole) (last.trans ?_)
      exact (hasLast_group_iff balanced _ _ _).symm

/-- The groups that are open are those that no directive closes. -/
theorem exists_mem_iff (charts : Charts marks groups) {line : Nat} {opener : Opener} :
    (∃ group ∈ groups, group.openedAt = line ∧ group.opener = opener) ↔
      ∃ before after, marks = before ++ ⟨line, .opens opener⟩ :: after ∧ ¬ IsClosed after := by
  induction charts with
  | outside settled =>
    refine iff_of_false (by simp) ?_
    rintro ⟨before, after, parts, isOpen⟩
    exact isOpen (settled.isClosed parts)
  | @inside front inside group outer charts balanced last ih =>
    constructor
    · rintro ⟨found, member, rfl, rfl⟩
      rcases List.mem_cons.mp member with rfl | isOuter
      · exact ⟨front, inside, rfl, balanced.not_isClosed⟩
      · obtain ⟨before, after, rfl, isOpen⟩ := ih.mp ⟨found, isOuter, rfl, rfl⟩
        exact ⟨before, after ++ ⟨group.openedAt, .opens group.opener⟩ :: inside, by simp,
          balanced.isClosed_iff.not.mpr isOpen⟩
    · rintro ⟨before, after, parts, isOpen⟩
      rcases append_eq_around parts with ⟨between, inFront, rfl⟩ | ⟨between, rfl, behind⟩
      · have still : ¬ IsClosed between := fun closed => isOpen (closed.append _)
        obtain ⟨found, isOuter, same⟩ := ih.mpr ⟨before, between, inFront, still⟩
        exact ⟨found, List.mem_cons_of_mem _ isOuter, same⟩
      · rcases List.cons_eq_append_iff.mp behind with ⟨-, same⟩ | ⟨between, -, deeper⟩
        · cases (List.cons.inj same).1
          exact ⟨group, List.mem_cons_self, rfl, rfl⟩
        · exact absurd (balanced.isClosed deeper) isOpen

/-- The groups that are open were opened in their order. -/
theorem sublist (charts : Charts marks groups) :
    (groups.reverse.map fun group => ⟨group.openedAt, .opens group.opener⟩).Sublist marks := by
  induction charts with
  | outside => exact List.nil_sublist _
  | inside charts balanced last ih =>
    rw [List.reverse_cons, List.map_append]
    exact ih.append (List.cons_sublist_cons.mpr (List.nil_sublist _))

end Charts

/-! ## What a step does to the structure -/

/-- The problems about the structure of groups. -/
def structural (problems : List (Located Problem)) : List (Located Problem) :=
  problems.filter (·.content.isStructural)

theorem structural_concat (problems : List (Located Problem)) (line : Nat) (problem : Problem) :
    structural (problems ++ [⟨line, problem⟩]) =
      structural problems ++ if problem.isStructural then [⟨line, problem⟩] else [] := by
  simp [structural, List.filter_singleton]

/-- A definition that cannot be read is no matter of structure. -/
theorem isStructural_of_parseDefinition {rest : List Char} {line : Nat} {problem : Problem}
    (failed : parseDefinition rest line = .error problem) : problem.isStructural = false := by
  rcases parseDefinition_error_cases failed with rfl | ⟨name, rfl⟩ | ⟨parameter, name, rfl⟩ <;> rfl

namespace State

/-- The groups are the same, and nothing was reported about their structure. -/
structure SameStructure (state later : State) : Prop where
  groups : later.groups = state.groups
  problems : structural later.problems = structural state.problems

variable {state middle later : State} {line : Nat}

theorem SameStructure.refl (state : State) : SameStructure state state :=
  ⟨rfl, rfl⟩

theorem SameStructure.trans (first : SameStructure state middle)
    (second : SameStructure middle later) : SameStructure state later :=
  ⟨second.groups.trans first.groups, second.problems.trans first.problems⟩

theorem SameStructure.report (same : SameStructure state later) (line : Nat) {problem : Problem}
    (other : problem.isStructural = false) : SameStructure state (later.report line problem) := by
  refine ⟨same.groups, ?_⟩
  rw [State.report, structural_concat, other, same.problems]
  simp

theorem SameStructure.ifActive (same : SameStructure state later) :
    SameStructure state (if state.active then later else state) := by
  split
  · exact same
  · exact .refl state

variable (state line)

theorem sameStructure_reportExpansion (problem : Macro.ExpansionProblem) :
    SameStructure state (state.reportExpansion line problem) := by
  unfold reportExpansion
  split
  · exact (SameStructure.refl state).report line rfl
  · split
    · exact .refl state
    · rename_i name _
      have noted : SameStructure state
          { state with reportedRecursion := name :: state.reportedRecursion } := ⟨rfl, rfl⟩
      exact noted.report _ rfl

theorem sameStructure_condition (text : List Char) :
    SameStructure state (state.condition line text).2 := by
  unfold condition
  split
  · exact sameStructure_reportExpansion state line _
  · split
    · exact (SameStructure.refl state).report line rfl
    · exact .refl state

theorem sameStructure_testName (opener : Opener) (wanted : Bool) (rest : List Char) :
    SameStructure state (state.testName line opener wanted rest).2 := by
  unfold testName
  split
  · exact (SameStructure.refl state).report line rfl
  · exact .refl state

theorem sameStructure_define (rest : List Char) :
    SameStructure state (state.define line rest) := by
  unfold define
  split
  · rename_i problem failed
    exact (SameStructure.refl state).report line (isStructural_of_parseDefinition failed)
  · exact ⟨rfl, rfl⟩

theorem sameStructure_undefine (rest : List Char) :
    SameStructure state (state.undefine line rest) := by
  unfold undefine
  split
  · exact (SameStructure.refl state).report line rfl
  · exact ⟨rfl, rfl⟩

theorem sameStructure_expandSegments (segments : List Comment.Segment) :
    SameStructure state (state.expandSegments line segments).2 := by
  fun_induction expandSegments state line segments with
  | case1 => exact .refl _
  | case2 state text rest later final expanded ih => simpa [expanded] using ih
  | case3 state text rest expansion _ later final expanded ih => simpa [expanded] using ih
  | case4 state text rest problem _ later final expanded ih =>
    rw [expanded] at ih
    exact (sameStructure_reportExpansion state line problem).trans ih

theorem sameStructure_codeLine (text : List Char) :
    SameStructure state (state.codeLine line text).2 := by
  unfold codeLine
  split
  · exact ⟨rfl, rfl⟩
  · have segments := sameStructure_expandSegments state line
      (Comment.segments state.insideComment text).1
    exact ⟨segments.groups, segments.problems⟩

/-- What is no conditional directive leaves the structure alone. -/
theorem sameStructure_after {event : Located Event} (other : event.content.mark? = none) :
    SameStructure state (state.after event) := by
  obtain ⟨line, content⟩ := event
  cases content with
  | code text => exact sameStructure_codeLine state line text
  | directive met =>
    cases met with
    | nothing | foreign => exact .refl state
    | define rest => exact (sameStructure_define state line rest).ifActive
    | undefine rest => exact (sameStructure_undefine state line rest).ifActive
    | announce rest => exact ((SameStructure.refl state).report line rfl).ifActive
    | openNamed | openCondition | orCondition | otherwise | close => cases other

end State

/-! ## What a conditional directive does -/

theorem IsBehindLast.isInGroup {marks : Marks} (behind : IsBehindLast marks) : IsInGroup marks := by
  obtain ⟨opening, inside, innermost, -⟩ := behind
  exact ⟨opening, inside, innermost⟩

namespace IsMisplaced

variable {marks : Marks} {mark : Mark} {problem other : Problem}

theorem isStructural (misplaced : IsMisplaced marks mark problem) :
    problem.isStructural = true := by
  cases misplaced <;> rfl

theorem unique (misplaced : IsMisplaced marks mark problem)
    (also : IsMisplaced marks mark other) : problem = other := by
  cases misplaced <;> cases also
  case next.nextBehindLast outside behind => exact absurd behind.isInGroup outside
  case nextBehindLast.next behind outside => exact absurd behind.isInGroup outside
  case last.secondLast outside behind => exact absurd behind.isInGroup outside
  case secondLast.last behind outside => exact absurd behind.isInGroup outside
  all_goals rfl

end IsMisplaced

/-- What a conditional directive does to a state: the groups are those behind it, and it is
    reported when it is misplaced. -/
structure Answers (marks : Marks) (line : Nat) (mark : Mark) (state later : State) : Prop where
  charts : Charts (marks ++ [⟨line, mark⟩]) later.groups
  found : ∃ found : Option Problem,
    structural later.problems = structural state.problems ++ (found.map (⟨line, ·⟩)).toList ∧
      ∀ problem, IsMisplaced marks mark problem ↔ found = some problem

namespace Answers

variable {marks : Marks} {line : Nat} {mark : Mark} {state later : State}

theorem silent (charts : Charts (marks ++ [⟨line, mark⟩]) later.groups)
    (problems : structural later.problems = structural state.problems)
    (placed : ∀ problem, ¬ IsMisplaced marks mark problem) :
    Answers marks line mark state later := by
  refine ⟨charts, none, by simpa using problems, fun problem => ?_⟩
  exact iff_of_false (placed problem) (by simp)

theorem reported {problem : Problem} (misplaced : IsMisplaced marks mark problem)
    (charts : Charts (marks ++ [⟨line, mark⟩]) state.groups) :
    Answers marks line mark state (state.report line problem) := by
  refine ⟨charts, some problem, ?_, fun other => ?_⟩
  · rw [State.report, structural_concat, misplaced.isStructural]
    rfl
  · exact ⟨fun also => congrArg some (misplaced.unique also),
      fun same => Option.some.inj same ▸ misplaced⟩

end Answers

namespace State

variable {marks : Marks} {state middle : State} (line : Nat)

theorem answers_openGroup (charts : Charts marks state.groups) (same : SameStructure state middle)
    (opener : Opener) (holds : Bool) :
    Answers marks line (.opens opener) state (middle.openGroup line opener holds) := by
  refine .silent ?_ same.problems fun problem misplaced => by cases misplaced
  simp only [openGroup, same.groups]
  exact charts.enter line opener _ _ _

theorem answers_nextBranch (charts : Charts marks state.groups) (rest : List Char) :
    Answers marks line .next state (state.nextBranch line rest) := by
  unfold nextBranch
  split
  · rename_i none
    rw [none] at charts
    refine .reported (.next charts.not_isInGroup) ?_
    rw [none]
    exact charts.aside (by simp) line
  · rename_i group outer inside
    rw [inside] at charts
    split
    · rename_i behind
      refine .reported (.nextBehindLast (charts.isBehindLast_iff.mpr behind)) ?_
      rw [inside]
      exact charts.next line group.taken group.active
    · rename_i before
      have placed : ∀ problem, ¬ IsMisplaced marks .next problem := fun problem misplaced => by
        cases misplaced with
        | next outside => exact outside charts.isInGroup
        | nextBehindLast behind => exact before (charts.isBehindLast_iff.mp behind)
      split
      · have same := sameStructure_condition state line rest
        exact .silent (charts.next line _ _) same.problems placed
      · exact .silent (charts.next line _ _) rfl placed

theorem answers_lastBranch (charts : Charts marks state.groups) :
    Answers marks line .last state (state.lastBranch line) := by
  unfold lastBranch
  split
  · rename_i none
    rw [none] at charts
    refine .reported (.last charts.not_isInGroup) ?_
    rw [none]
    exact charts.aside (by simp) line
  · rename_i group outer inside
    rw [inside] at charts
    split
    · rename_i behind
      refine .reported (.secondLast (charts.isBehindLast_iff.mpr behind)) ?_
      rw [inside]
      have again := charts.last line group.taken group.active
      rwa [← behind] at again
    · rename_i before
      refine .silent (charts.last line _ _) rfl fun problem misplaced => ?_
      cases misplaced with
      | last outside => exact outside charts.isInGroup
      | secondLast behind => exact before (charts.isBehindLast_iff.mp behind)

theorem answers_closeGroup (charts : Charts marks state.groups) :
    Answers marks line .closes state (state.closeGroup line) := by
  unfold closeGroup
  split
  · rename_i none
    rw [none] at charts
    refine .reported (.closes charts.not_isInGroup) ?_
    rw [none]
    exact charts.aside (by simp) line
  · rename_i group outer inside
    rw [inside] at charts
    refine .silent (charts.close line) rfl fun problem misplaced => ?_
    cases misplaced with
    | closes outside => exact outside charts.isInGroup

theorem answers_after {event : Located Event} {mark : Mark} (charts : Charts marks state.groups)
    (isMark : event.content.mark? = some mark) :
    Answers marks event.line mark state (state.after event) := by
  obtain ⟨line, content⟩ := event
  cases content with
  | code text => cases isMark
  | directive met =>
    cases met with
    | nothing | foreign | define | undefine | announce => cases isMark
    | openNamed opener wanted rest =>
      cases isMark
      show Answers marks line _ state (if state.active then _ else _)
      split
      · exact answers_openGroup line charts (sameStructure_testName state line _ _ _) _ _
      · exact answers_openGroup line charts (.refl state) _ _
    | openCondition rest =>
      cases isMark
      show Answers marks line _ state (if state.active then _ else _)
      split
      · exact answers_openGroup line charts (sameStructure_condition state line _) _ _
      · exact answers_openGroup line charts (.refl state) _ _
    | orCondition rest =>
      cases isMark
      exact answers_nextBranch line charts rest
    | otherwise =>
      cases isMark
      exact answers_lastBranch line charts
    | close =>
      cases isMark
      exact answers_closeGroup line charts

end State

/-! ## Whole runs -/

section Events

variable {events : List (Located Event)} {event : Located Event} {marks : Marks}
  {error : Located Problem}

theorem marksOf_concat (events : List (Located Event)) (event : Located Event) :
    marksOf (events ++ [event]) =
      marksOf events ++ (event.content.mark?.map (⟨event.line, ·⟩)).toList := by
  unfold marksOf
  rw [List.filterMap_append]
  cases isMark : event.content.mark? <;> simp [isMark]

theorem mem_marksOf {mark : Located Mark} (member : mark ∈ marksOf events) :
    ∃ event ∈ events, event.line = mark.line := by
  obtain ⟨event, inEvents, isMark⟩ := List.mem_filterMap.mp member
  obtain ⟨content, -, rfl⟩ := Option.map_eq_some_iff.mp isMark
  exact ⟨event, inEvents, rfl⟩

theorem exists_mem_of_hasMisplaced (misplaced : HasMisplaced marks error) :
    ∃ mark ∈ marks, mark.line = error.line ∧ ∀ opener, mark.content ≠ .opens opener := by
  obtain ⟨before, mark, after, rfl, line, misplaced⟩ := misplaced
  refine ⟨mark, by simp, line.symm, fun opener opens => ?_⟩
  rw [opens] at misplaced
  cases misplaced

theorem hasMisplaced_concat_iff (marks : Marks) (mark : Located Mark) (error : Located Problem) :
    HasMisplaced (marks ++ [mark]) error ↔
      HasMisplaced marks error ∨
        (error.line = mark.line ∧ IsMisplaced marks mark.content error.content) := by
  constructor
  · rintro ⟨before, found, after, parts, line, misplaced⟩
    rcases append_eq_around parts with ⟨between, inFront, -⟩ | ⟨between, rfl, behind⟩
    · exact .inl ⟨before, found, between, inFront, line, misplaced⟩
    · rcases List.singleton_eq_append_iff.mp behind with ⟨rfl, same⟩ | ⟨-, none⟩
      · cases same
        rw [List.append_nil] at misplaced
        exact .inr ⟨line, misplaced⟩
      · cases none
  · rintro (⟨before, found, after, rfl, line, misplaced⟩ | ⟨line, misplaced⟩)
    · exact ⟨before, found, after ++ [mark], by simp, line, misplaced⟩
    · exact ⟨marks, mark, [], rfl, line, misplaced⟩

/-- The state behind some events knows the groups that are open, and what was misplaced. -/
structure Tallies (events : List (Located Event)) : Prop where
  charts : Charts (marksOf events) (stateAfter events).groups
  found : ∀ error, error ∈ structural (stateAfter events).problems ↔
    HasMisplaced (marksOf events) error
  ascending : (structural (stateAfter events).problems).Pairwise (·.line < ·.line)

theorem tallies (ascending : events.Pairwise (·.line < ·.line)) : Tallies events := by
  induction events using List.reverseRecOn with
  | nil =>
    refine ⟨.outside (.balanced .nil), fun error => iff_of_false List.not_mem_nil ?_, .nil⟩
    rintro ⟨before, mark, after, none, -⟩
    simp [marksOf] at none
  | append_singleton events event ih =>
    obtain ⟨before, -, later⟩ := List.pairwise_append.mp ascending
    obtain ⟨charts, found, ordered⟩ := ih before
    cases isMark : event.content.mark? with
    | none =>
      have same := State.sameStructure_after (stateAfter events) isMark
      have marks : marksOf (events ++ [event]) = marksOf events := by
        rw [marksOf_concat, isMark]
        exact List.append_nil _
      refine ⟨?_, ?_, ?_⟩
      · rw [marks, stateAfter_concat, same.groups]
        exact charts
      · rw [marks, stateAfter_concat, same.problems]
        exact found
      · rw [stateAfter_concat, same.problems]
        exact ordered
    | some mark =>
      obtain ⟨chartsLater, new, problems, isNew⟩ := State.answers_after charts isMark
      have marks : marksOf (events ++ [event]) = marksOf events ++ [⟨event.line, mark⟩] := by
        rw [marksOf_concat, isMark]
        rfl
      have memNew : ∀ error, error ∈ (new.map (Located.mk event.line ·)).toList ↔
          error.line = event.line ∧ IsMisplaced (marksOf events) mark error.content := by
        rintro ⟨line, problem⟩
        rw [isNew, Option.mem_toList]
        cases new <;> simp [eq_comm]
      refine ⟨?_, fun error => ?_, ?_⟩
      · rw [marks, stateAfter_concat]
        exact chartsLater
      · rw [marks, stateAfter_concat, problems, List.mem_append, hasMisplaced_concat_iff,
          found error, memNew error]
      · rw [stateAfter_concat, problems]
        refine List.pairwise_append.mpr ⟨ordered, ?_, fun earlier isEarlier last isLast => ?_⟩
        · cases new <;> simp
        · obtain ⟨place, inMarks, line, -⟩ :=
            exists_mem_of_hasMisplaced ((found earlier).mp isEarlier)
          obtain ⟨other, inEvents, same⟩ := mem_marksOf inMarks
          have := later other inEvents event (List.mem_singleton_self event)
          rw [((memNew last).mp isLast).1, ← line, ← same]
          exact this

theorem marksOf_ascending (ascending : events.Pairwise (·.line < ·.line)) :
    (marksOf events).Pairwise (·.line < ·.line) := by
  refine List.Pairwise.filterMap _ ?_ ascending
  rintro first second less mark isFirst mark' isSecond
  obtain ⟨_, -, rfl⟩ := Option.map_eq_some_iff.mp isFirst
  obtain ⟨_, -, rfl⟩ := Option.map_eq_some_iff.mp isSecond
  exact less

/-- On one line there is one conditional directive. -/
theorem eq_of_line_eq (ascending : marks.Pairwise (·.line < ·.line)) {first second : Located Mark}
    (isFirst : first ∈ marks) (isSecond : second ∈ marks) (same : first.line = second.line) :
    first = second := by
  have nodup : (marks.map (·.line)).Nodup :=
    List.pairwise_map.mpr (ascending.imp fun less => Nat.ne_of_lt less)
  exact List.inj_on_of_nodup_map nodup isFirst isSecond same

theorem mem_unterminated_iff {state : State} (charts : Charts marks state.groups) :
    error ∈ unterminated state ↔ HasUnterminated marks error := by
  obtain ⟨line, problem⟩ := error
  unfold unterminated HasUnterminated
  simp only [List.mem_map, List.mem_reverse, Located.mk.injEq]
  constructor
  · rintro ⟨group, isOpen, rfl, rfl⟩
    obtain ⟨before, after, parts, still⟩ := charts.exists_mem_iff.mp ⟨group, isOpen, rfl, rfl⟩
    exact ⟨before, group.opener, after, parts, still, rfl⟩
  · rintro ⟨before, opener, after, parts, still, rfl⟩
    obtain ⟨group, isOpen, rfl, rfl⟩ := charts.exists_mem_iff.mpr ⟨before, after, parts, still⟩
    exact ⟨group, isOpen, rfl, rfl⟩

/-- The groups that are open are reported on the lines of directives that open them. -/
theorem pairwise_unterminated {state : State} (charts : Charts marks state.groups)
    (ascending : marks.Pairwise (·.line < ·.line)) :
    (unterminated state).Pairwise (·.line < ·.line) := by
  have lines := List.pairwise_map.mp (ascending.sublist charts.sublist)
  unfold unterminated
  exact List.pairwise_map.mpr lines

end Events

section Text

variable (text : List Char)

theorem structural_detected :
    structural (detected text) = structural (stateAfter (eventsOf text)).problems ++
      unterminated (stateAfter (eventsOf text)) := by
  unfold detected structural
  rw [List.filter_append]
  congr 1
  refine List.filter_eq_self.mpr fun error member => ?_
  obtain ⟨group, -, rfl⟩ := List.mem_map.mp member
  rfl

theorem mem_structural_detected_iff {error : Located Problem} :
    error ∈ structural (detected text) ↔
      HasMisplaced (marksOf (eventsOf text)) error ∨
        HasUnterminated (marksOf (eventsOf text)) error := by
  obtain ⟨charts, found, -⟩ := tallies (events_ascending .initial 1 (Text.lines text))
  rw [structural_detected, List.mem_append, eventsOf, found, mem_unterminated_iff charts]

/-- On one line no more than one error of structure is found. -/
theorem pairwise_structural_detected :
    (structural (detected text)).Pairwise (·.line ≠ ·.line) := by
  have ascending := events_ascending .initial 1 (Text.lines text)
  obtain ⟨charts, found, ordered⟩ := tallies ascending
  rw [structural_detected]
  refine List.pairwise_append.mpr ⟨ordered.imp Nat.ne_of_lt, ?_, ?_⟩
  · exact (pairwise_unterminated charts (marksOf_ascending ascending)).imp Nat.ne_of_lt
  · intro misplaced isMisplaced unclosed isUnclosed same
    obtain ⟨mark, inMarks, line, other⟩ :=
      exists_mem_of_hasMisplaced ((found misplaced).mp isMisplaced)
    obtain ⟨before, opener, after, parts, -⟩ := (mem_unterminated_iff charts).mp isUnclosed
    have opening : ⟨unclosed.line, .opens opener⟩ ∈
        marksOf (events .initial 1 (Text.lines text)) := by
      rw [parts]
      simp
    have isOpening := eq_of_line_eq (marksOf_ascending ascending) inMarks opening
      (line.trans same)
    exact other opener (congrArg Located.content isOpening)

theorem problems_stateAfter_append (front back : List (Located Event)) :
    (stateAfter front).problems <+: (stateAfter (front ++ back)).problems := by
  induction back using List.reverseRecOn with
  | nil => simp
  | append_singleton back event ih =>
    rw [← List.append_assoc, stateAfter_concat]
    refine ih.trans ?_
    unfold State.after
    split
    · exact State.problems_directive _ _ _
    · exact State.problems_codeLine _ _ _

/-- What is reported about the structure of a text, and in which order everything is reported. -/
structure ReportsStructure (text : List Char) : Prop where
  exact : ∀ error, error.content.isStructural = true →
    (error ∈ (outcomeOf text).errors ↔ HasMisplaced (marksOf (eventsOf text)) error ∨
      HasUnterminated (marksOf (eventsOf text)) error)
  once : (structural (outcomeOf text).errors).Pairwise (·.line < ·.line)
  found : ∀ front back, eventsOf text = front ++ back →
    (stateAfter front).problems <+: detected text
  ordered : (outcomeOf text).errors.Pairwise (·.line ≤ ·.line)
  onLine : ∀ line, (outcomeOf text).errors.filter (·.line = line) =
    (detected text).filter (·.line = line)

/-- Errors of structure are the directives that are misplaced and the groups that are not closed,
    each once. All errors are in the order of their lines, and on one line in the order in which
    they were found. -/
theorem reportsStructure : ReportsStructure text := by
  have errors : (outcomeOf text).errors = Located.sortByLine (detected text) :=
    errors_outcomeOf text
  have sorted : (outcomeOf text).errors.Pairwise (·.line ≤ ·.line) := by
    rw [errors]
    exact Located.sortByLine_ascending _
  refine ⟨fun error isStructural => ?_, ?_, ?_, sorted, fun line => ?_⟩
  · rw [← mem_structural_detected_iff, errors, Located.mem_sortByLine]
    exact ⟨fun member => List.mem_filter.mpr ⟨member, isStructural⟩, List.mem_of_mem_filter⟩
  · have same : (structural (outcomeOf text).errors).Perm (structural (detected text)) := by
      rw [errors]
      exact (Located.sortByLine_perm _).filter _
    have distinct : (structural (outcomeOf text).errors).Pairwise (·.line ≠ ·.line) :=
      (same.pairwise_iff Ne.symm).mpr (pairwise_structural_detected text)
    exact ((sorted.filter _).and distinct).imp fun ⟨le, ne⟩ => Nat.lt_of_le_of_ne le ne
  · intro front back parts
    rw [detected, parts]
    exact (problems_stateAfter_append front back).trans (List.prefix_append _ _)
  · rw [errors]
    exact Located.filter_line_sortByLine _ line

end Text

end Multipass.Preprocess
