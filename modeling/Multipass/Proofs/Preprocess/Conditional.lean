import Multipass.Proofs.Preprocess.Evaluate
import Multipass.Proofs.Text.Lines

/-!
# Conditional groups

Going through the lines of a program with a stack of open groups comes to the same as
evaluating its tree. A block in text that is left out changes nothing; a group of which
no branch can be chosen any more is left as it was entered; a block in text that is kept
has its meaning.
-/

namespace Multipass.Preprocess

theorem Opening.handled (opening : Opening) :
    Directive.ofKeyword opening.opener.keyword opening.wording.argument ≠ .foreign := by
  cases opening.opener with
  | ifDefined => exact Directive.noConfusion
  | ifNotDefined => exact Directive.noConfusion
  | ifCondition => exact Directive.noConfusion

theorem directive_of_inactive {state : State} (inactive : state.active = false)
    (opening : Opening) (number : Nat) :
    state.directive number
        (Directive.ofKeyword opening.opener.keyword opening.wording.argument) =
      state.openGroup number opening.opener false := by
  cases opening.opener with
  | ifDefined => exact if_neg (by rw [inactive]; exact Bool.false_ne_true)
  | ifNotDefined => exact if_neg (by rw [inactive]; exact Bool.false_ne_true)
  | ifCondition => exact if_neg (by rw [inactive]; exact Bool.false_ne_true)

theorem CodeLine.plain (line : CodeLine) (state : State) :
    ¬ (!state.insideComment && Directive.isDirectiveLine line.text) = true := by
  rw [line.notDirective, Bool.and_false]
  exact Bool.false_ne_true

/-- The end of a group leaves what is around it. -/
theorem run_close (wording : Wording) {state : State} {group : Group} {groups : List Group}
    (innermost : state.groups = group :: groups) (outside : state.insideComment = false)
    (number : Nat) (suffix : List (List Char)) :
    run state number (wording.line "endif" :: suffix) =
      run { state with groups } (number + 1) suffix := by
  rw [wording.run_line (by decide) Directive.noConfusion outside]
  show run (state.closeGroup number) _ _ = _
  rw [State.closeGroup, innermost]

section Decided

variable {state : State} {group : Group} {groups : List Group}

/-- The branches of a group of which no branch can be chosen any more are left out. -/
theorem nextBranch_of_decided (innermost : state.groups = group :: groups)
    (decided : (group.parentActive && !group.taken) = false) (unclosed : group.seenElse = false)
    (number : Nat) (text : List Char) :
    state.nextBranch number text =
      { state with groups := { group with active := false } :: groups } := by
  rw [State.nextBranch, innermost]
  simp only
  rw [if_neg (by rw [unclosed]; exact Bool.false_ne_true),
    if_neg (by rw [decided]; exact Bool.false_ne_true)]

theorem groups_of_open (state : State) (group : Group) :
    State.groups { state with groups := group :: groups } = group :: groups :=
  rfl

/-- Text is left out in a group that is not active. -/
theorem active_of_left {left : Group} (inactive : left.active = false) :
    State.active { state with groups := left :: groups } = false :=
  inactive

theorem lastBranch_of_decided (innermost : state.groups = group :: groups)
    (decided : (group.parentActive && !group.taken) = false) (unclosed : group.seenElse = false)
    (number : Nat) :
    state.lastBranch number =
      { state with
        groups := { group with seenElse := true, active := false, taken := true } :: groups } := by
  rw [State.lastBranch, innermost]
  simp only [unclosed, decided]
  rfl

end Decided

mutual

/-- Nothing of a block in text that is left out is kept, and it leaves no trace. -/
theorem Block.run_skipped (block : Block) {state : State} (inactive : state.active = false)
    (outside : state.insideComment = false) (number : Nat) (suffix : List (List Char)) :
    run state number (block.lines ++ suffix) =
      run state (number + block.lines.length) suffix := by
  have notActive : ¬ state.active = true := by
    rw [inactive]
    exact Bool.false_ne_true
  cases block with
  | done => rfl
  | code line rest =>
    have later := rest.run_skipped inactive outside (number + 1) suffix
    rw [Block.lines, List.cons_append, Preprocess.run_skipped (line.plain state) notActive, later,
      List.length_cons, Nat.add_assoc, Nat.add_comm 1]
  | define wording rest =>
    have later := rest.run_skipped inactive outside (number + 1) suffix
    rw [Block.lines, List.cons_append,
      wording.run_line (by decide) Directive.noConfusion outside]
    show run (if state.active = true then _ else state) _ _ = _
    rw [if_neg notActive, later, List.length_cons, Nat.add_assoc, Nat.add_comm 1]
  | undefine wording rest =>
    have later := rest.run_skipped inactive outside (number + 1) suffix
    rw [Block.lines, List.cons_append,
      wording.run_line (by decide) Directive.noConfusion outside]
    show run (if state.active = true then _ else state) _ _ = _
    rw [if_neg notActive, later, List.length_cons, Nat.add_assoc, Nat.add_comm 1]
  | group opening body branches rest =>
    rw [Block.lines, List.cons_append, Opening.line,
      opening.wording.run_line opening.opener.isKeyword opening.handled outside,
      directive_of_inactive inactive, List.append_assoc, List.append_assoc]
    have inBody : (state.openGroup number opening.opener false).active = false := by
      show (state.active && false) = false
      exact Bool.and_false _
    have innermost : (state.openGroup number opening.opener false).groups =
        ⟨opening.opener, number, state.active, false || !state.active, state.active && false,
          false⟩ :: state.groups := rfl
    have decided : (state.active && !(false || !state.active)) = false := by
      rw [inactive]
      rfl
    rw [body.run_skipped inBody outside, branches.run_passed innermost decided rfl outside]
    show run state _ _ = _
    rw [rest.run_skipped inactive outside]
    congr 1
    simp only [List.length_cons, List.length_append]
    omega

/-- A group of which no branch can be chosen any more is passed over. -/
theorem Branches.run_passed (branches : Branches) {state : State} {group : Group}
    {groups : List Group} (innermost : state.groups = group :: groups)
    (decided : (group.parentActive && !group.taken) = false) (unclosed : group.seenElse = false)
    (outside : state.insideComment = false) (number : Nat) (suffix : List (List Char)) :
    run state number (branches.lines ++ suffix) =
      run { state with groups } (number + branches.lines.length) suffix := by
  cases branches with
  | close wording =>
    rw [Branches.lines, List.singleton_append, run_close wording innermost outside]
    rfl
  | otherwise wording body closing =>
    rw [Branches.lines, List.cons_append,
      wording.run_line (by decide) Directive.noConfusion outside]
    show run (state.lastBranch number) _ _ = _
    rw [lastBranch_of_decided innermost decided unclosed, List.append_assoc,
      body.run_skipped (active_of_left rfl) outside, List.singleton_append,
      run_close closing (groups_of_open state _) outside]
    congr 1
    simp only [List.length_cons, List.length_append, List.length_nil]
    omega
  | orElse wording body rest =>
    rw [Branches.lines, List.cons_append,
      wording.run_line (by decide) Directive.noConfusion outside]
    show run (state.nextBranch number wording.argument) _ _ = _
    rw [nextBranch_of_decided innermost decided unclosed, List.append_assoc,
      body.run_skipped (active_of_left rfl) outside,
      rest.run_passed (groups_of_open state { group with active := false }) decided unclosed
        outside]
    congr 1
    simp only [List.length_cons, List.length_append]
    omega

end

/-- A run that goes on after lines with a known meaning. -/
def Meaning.resume (meaning : Meaning) (groups : List Group) (problems : List (Located Problem))
    (number : Nat) (suffix : List (List Char)) : List KeptLine × State :=
  let later := run (meaning.context.state groups (problems ++ meaning.problems)) number suffix
  (meaning.kept ++ later.1, later.2)

/-- Are the lines inside these groups kept? -/
def AllKept (groups : List Group) : Prop :=
  ∀ group ∈ groups.head?, group.active = true

section Resumed

variable {context : Context} {groups : List Group} {problems : List (Located Problem)}

theorem AllKept.active (kept : AllKept groups) : (context.state groups problems).active = true := by
  cases groups with
  | nil => rfl
  | cons group outer => exact kept group rfl

theorem Meaning.followedBy_resume (first : Meaning) (next : Context → Meaning) (number : Nat)
    (suffix : List (List Char)) :
    (first.followedBy next).resume groups problems number suffix =
      (first.kept ++
          ((next first.context).resume groups (problems ++ first.problems) number suffix).1,
        ((next first.context).resume groups (problems ++ first.problems) number suffix).2) := by
  simp only [Meaning.resume, Meaning.followedBy, List.append_assoc]

theorem Verdict.choose_resume (verdict : Verdict) (taken left : Context → Meaning) (number : Nat)
    (suffix : List (List Char)) :
    (verdict.choose taken left).resume groups problems number suffix =
      (if verdict.holds then taken verdict.context else left verdict.context).resume groups
        (problems ++ verdict.problems) number suffix := by
  simp only [Meaning.resume, Verdict.choose, List.append_assoc]

theorem Context.define_kept (line : Nat) (text : List Char) :
    (context.define line text).kept = [] := by
  unfold Context.define
  split <;> rfl

theorem Context.undefine_kept (line : Nat) (text : List Char) :
    (context.undefine line text).kept = [] := by
  unfold Context.undefine
  split <;> rfl

theorem openGroup_of_kept (kept : AllKept groups) (number : Nat) (opener : Opener)
    (holds : Bool) :
    (context.state groups problems).openGroup number opener holds =
      context.state (⟨opener, number, true, holds, holds, false⟩ :: groups) problems := by
  rw [State.openGroup, kept.active, Bool.not_true, Bool.or_false, Bool.true_and]
  rfl

/-- The directive that opens a group in text that is kept. -/
theorem directive_of_kept (kept : AllKept groups) (opening : Opening) (number : Nat) :
    (context.state groups problems).directive number
        (Directive.ofKeyword opening.opener.keyword opening.wording.argument) =
      (opening.verdict context number).context.state
        (⟨opening.opener, number, true, (opening.verdict context number).holds,
          (opening.verdict context number).holds, false⟩ :: groups)
        (problems ++ (opening.verdict context number).problems) := by
  obtain ⟨opener, wording⟩ := opening
  cases opener with
  | ifDefined =>
    show (context.state groups problems).directive number
      (.openNamed .ifDefined true wording.argument) = _
    rw [State.directive, if_pos kept.active, testName_state]
    exact openGroup_of_kept kept number .ifDefined _
  | ifNotDefined =>
    show (context.state groups problems).directive number
      (.openNamed .ifNotDefined false wording.argument) = _
    rw [State.directive, if_pos kept.active, testName_state]
    exact openGroup_of_kept kept number .ifNotDefined _
  | ifCondition =>
    show (context.state groups problems).directive number (.openCondition wording.argument) = _
    rw [State.directive, if_pos kept.active, condition_state]
    exact openGroup_of_kept kept number .ifCondition _

section Open

variable {group : Group} (parent : group.parentActive = true) (untaken : group.taken = false)
  (unclosed : group.seenElse = false)

include parent untaken unclosed

/-- A group of which no branch was taken asks its next condition. -/
theorem nextBranch_of_open (number : Nat) (text : List Char) :
    (context.state (group :: groups) problems).nextBranch number text =
      (context.condition number text).context.state
        ({ group with
          active := (context.condition number text).holds
          taken := (context.condition number text).holds } :: groups)
        (problems ++ (context.condition number text).problems) := by
  show (if group.seenElse = true then _ else
    if (group.parentActive && !group.taken) = true then _ else _) = _
  rw [if_neg (by rw [unclosed]; exact Bool.false_ne_true),
    if_pos (by rw [parent, untaken]; rfl), condition_state]
  rfl

/-- A group of which no branch was taken takes its last one. -/
theorem lastBranch_of_open (number : Nat) :
    (context.state (group :: groups) problems).lastBranch number =
      context.state ({ group with seenElse := true, active := true, taken := true } :: groups)
        problems := by
  have isChosen : (group.parentActive && !group.taken) = true := by
    rw [parent, untaken]
    rfl
  show (if group.seenElse = true then _ else _) = _
  rw [if_neg (by rw [unclosed]; exact Bool.false_ne_true), isChosen]
  rfl

end Open

end Resumed

mutual

/-- A block in text that is kept has its meaning. -/
theorem Block.run_kept (block : Block) (context : Context) {groups : List Group}
    (kept : AllKept groups) (problems : List (Located Problem)) (number : Nat)
    (suffix : List (List Char)) :
    run (context.state groups problems) number (block.lines ++ suffix) =
      (block.meaning context number).resume groups problems (number + block.lines.length)
        suffix := by
  cases block with
  | done =>
    rw [Block.lines, Block.meaning, Meaning.resume, List.append_nil]
    rfl
  | code line rest =>
    obtain ⟨shown, keptHere, codeHere⟩ := codeLine_state context groups problems number line
    have lengths : number + (Block.code line rest).lines.length =
        number + 1 + rest.lines.length := by
      rw [Block.lines, List.length_cons]
      omega
    rw [lengths, Block.lines, Block.meaning, List.cons_append,
      run_code (line.plain _) kept.active, codeHere, rest.run_kept _ kept,
      Meaning.followedBy_resume, keptHere]
    rfl
  | define wording rest =>
    have lengths : number + (Block.define wording rest).lines.length =
        number + 1 + rest.lines.length := by
      rw [Block.lines, List.length_cons]
      omega
    rw [lengths, Block.lines, Block.meaning, List.cons_append,
      wording.run_line (by decide) Directive.noConfusion rfl]
    show run (if (context.state groups problems).active = true then _ else _) _ _ = _
    rw [if_pos kept.active, define_state, rest.run_kept _ kept, Meaning.followedBy_resume,
      Context.define_kept]
    rfl
  | undefine wording rest =>
    have lengths : number + (Block.undefine wording rest).lines.length =
        number + 1 + rest.lines.length := by
      rw [Block.lines, List.length_cons]
      omega
    rw [lengths, Block.lines, Block.meaning, List.cons_append,
      wording.run_line (by decide) Directive.noConfusion rfl]
    show run (if (context.state groups problems).active = true then _ else _) _ _ = _
    rw [if_pos kept.active, undefine_state, rest.run_kept _ kept, Meaning.followedBy_resume,
      Context.undefine_kept]
    rfl
  | group opening body branches rest =>
    have lengths : number + (Block.group opening body branches rest).lines.length =
        number + 1 + body.lines.length + branches.lines.length + rest.lines.length := by
      rw [Block.lines, List.length_cons, List.length_append, List.length_append]
      omega
    rw [lengths, Block.lines, Block.meaning, List.cons_append, Opening.line,
      opening.wording.run_line opening.opener.isKeyword opening.handled rfl,
      directive_of_kept kept, List.append_assoc, List.append_assoc,
      branches.run_chosen body _ rfl rfl rfl rfl, Meaning.followedBy_resume, Meaning.resume,
      rest.run_kept _ kept]
  termination_by 2 * sizeOf block

/-- The branch that a verdict chooses: the next one, or one of those after it. -/
theorem Branches.run_chosen (branches : Branches) (body : Block) (verdict : Verdict)
    {group : Group} {groups : List Group} (parent : group.parentActive = true)
    (active : group.active = verdict.holds) (taken : group.taken = verdict.holds)
    (unclosed : group.seenElse = false) (problems : List (Located Problem)) (number : Nat)
    (suffix : List (List Char)) :
    run (verdict.context.state (group :: groups) (problems ++ verdict.problems)) number
        (body.lines ++ (branches.lines ++ suffix)) =
      (verdict.choose (fun context => body.meaning context number) fun context =>
          branches.meaning context (number + body.lines.length)).resume groups problems
        (number + body.lines.length + branches.lines.length) suffix := by
  rw [Verdict.choose_resume]
  cases holds : verdict.holds with
  | true =>
    rw [holds] at active taken
    have inside : AllKept (group :: groups) := by
      intro innermost same
      rw [← Option.some.inj same]
      exact active
    have decided : (group.parentActive && !group.taken) = false := by
      rw [taken, Bool.not_true, Bool.and_false]
    rw [body.run_kept _ inside, if_pos rfl, Meaning.resume, Meaning.resume,
      branches.run_passed rfl decided unclosed rfl]
    rfl
  | false =>
    rw [holds] at active taken
    have outside : (verdict.context.state (group :: groups)
        (problems ++ verdict.problems)).active = false := active
    rw [body.run_skipped outside rfl, branches.run_open _ parent taken unclosed, if_neg]
    exact Bool.false_ne_true
  termination_by 2 * (sizeOf body + sizeOf branches) + 1

/-- A group of which no branch was taken so far goes on with one of the branches left. -/
theorem Branches.run_open (branches : Branches) (context : Context) {group : Group}
    {groups : List Group} (parent : group.parentActive = true) (untaken : group.taken = false)
    (unclosed : group.seenElse = false) (problems : List (Located Problem)) (number : Nat)
    (suffix : List (List Char)) :
    run (context.state (group :: groups) problems) number (branches.lines ++ suffix) =
      (branches.meaning context number).resume groups problems
        (number + branches.lines.length) suffix := by
  cases branches with
  | close wording =>
    rw [Branches.lines, List.singleton_append, run_close wording rfl rfl, Branches.meaning,
      Meaning.resume, List.append_nil]
    rfl
  | otherwise wording body closing =>
    have inside : AllKept
        ({ group with seenElse := true, active := true, taken := true } :: groups) := by
      intro innermost same
      rw [← Option.some.inj same]
    have lengths : number + (Branches.otherwise wording body closing).lines.length =
        number + 1 + body.lines.length + 1 := by
      rw [Branches.lines, List.length_cons, List.length_append, List.length_singleton]
      omega
    rw [lengths, Branches.lines, List.cons_append,
      wording.run_line (by decide) Directive.noConfusion rfl]
    show run ((context.state (group :: groups) problems).lastBranch number) _ _ = _
    rw [lastBranch_of_open parent untaken unclosed, List.append_assoc, body.run_kept _ inside,
      List.singleton_append, Branches.meaning, Meaning.resume, Meaning.resume,
      run_close closing rfl rfl]
    rfl
  | orElse wording body rest =>
    have lengths : number + (Branches.orElse wording body rest).lines.length =
        number + 1 + body.lines.length + rest.lines.length := by
      rw [Branches.lines, List.length_cons, List.length_append]
      omega
    rw [lengths, Branches.lines, List.cons_append,
      wording.run_line (by decide) Directive.noConfusion rfl]
    show run ((context.state (group :: groups) problems).nextBranch number
      wording.argument) _ _ = _
    rw [nextBranch_of_open parent untaken unclosed, List.append_assoc,
      rest.run_chosen body _ (by exact parent) rfl rfl (by exact unclosed), Branches.meaning]
  termination_by 2 * sizeOf branches

end

/-- A block with at least one line. -/
structure Program where
  block : Block
  nonempty : block.lines ≠ []

namespace Program

/-- The source text of a program. -/
def source (program : Program) : String :=
  String.ofList (Text.unlines program.block.lines)

/-- The meaning of a whole program, with no macros and from line 1 on. -/
def meaning (program : Program) : Meaning :=
  program.block.meaning .empty 1

/-- Preprocessing a program gives its meaning: the lines that it keeps, with their
    origins, and the problems found on the way, in the order of their lines. -/
theorem preprocess_source (program : Program) :
    preprocess program.source =
      ⟨program.meaning.kept, Located.sortByLine program.meaning.problems⟩ := by
  have cut : Text.lines program.source.toList = program.block.lines := by
    rw [source, String.toList_ofList]
    exact Text.lines_unlines program.block.lines_oneLine program.nonempty
  have outermost : AllKept [] := fun group none => absurd none (by simp)
  have ran : run .initial 1 (Text.lines program.source.toList) =
      (program.meaning.kept,
        program.meaning.context.state [] program.meaning.problems) := by
    have whole := program.block.run_kept .empty outermost [] 1 []
    rw [List.append_nil, Meaning.resume, run, List.append_nil, List.nil_append] at whole
    rw [cut]
    exact whole
  rw [preprocess, outcomeOf, ran]
  show (⟨_, Located.sortByLine (_ ++ [])⟩ : Outcome) = _
  rw [List.append_nil]
  rfl

/-- A group on the name `A` around one line of code. -/
def guarded : Program where
  block := .group ⟨.ifNotDefined, ⟨[], [], " A".toList, by simp, by simp, rfl, by decide,
      by decide⟩⟩
    (.code ⟨"x".toList, rfl, by decide, by decide, by decide⟩ .done)
    (.close ⟨[], [], [], by simp, by simp, rfl, by decide, by decide⟩) .done
  nonempty := List.cons_ne_nil _ _

example : guarded.source = "#ifndef A\nx\n#endif" ∧
    guarded.meaning.kept = [⟨2, "x".toList⟩] ∧ guarded.meaning.problems = [] := by
  decide +kernel

end Program

end Multipass.Preprocess
