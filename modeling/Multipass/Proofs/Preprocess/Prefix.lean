import Multipass.Proofs.LineMap
import Multipass.Proofs.Preprocess.OneLine
import Multipass.Proofs.Preprocess.Seam
import Multipass.Proofs.Text.Lines

/-!
# More text after a text

Lines that come later do not change what a run made of the lines before them. What was kept
stays in front of what is kept later, and no problem that was found is taken back; only
groups that were still open may be closed.
-/

namespace Multipass.Preprocess

namespace State

variable (state : State) (line : Nat)

/-! ## No step takes a problem back -/

theorem problems_report (problem : Problem) :
    state.problems <+: (state.report line problem).problems :=
  List.prefix_append _ _

theorem problems_reportExpansion (problem : Macro.ExpansionProblem) :
    state.problems <+: (state.reportExpansion line problem).problems := by
  unfold reportExpansion
  split
  · exact problems_report state line _
  · split
    · exact List.prefix_rfl
    · exact List.prefix_append _ _

theorem problems_condition (text : List Char) :
    state.problems <+: (state.condition line text).2.problems := by
  unfold condition
  split
  · exact problems_reportExpansion state line _
  · split
    · exact problems_report state line _
    · exact List.prefix_rfl

theorem problems_testName (opener : Opener) (wanted : Bool) (rest : List Char) :
    state.problems <+: (state.testName line opener wanted rest).2.problems := by
  unfold testName
  split
  · exact problems_report state line _
  · exact List.prefix_rfl

theorem problems_define (rest : List Char) :
    state.problems <+: (state.define line rest).problems := by
  unfold define
  split
  · exact problems_report state line _
  · exact List.prefix_rfl

theorem problems_undefine (rest : List Char) :
    state.problems <+: (state.undefine line rest).problems := by
  unfold undefine
  split
  · exact problems_report state line _
  · exact List.prefix_rfl

theorem problems_nextBranch (rest : List Char) :
    state.problems <+: (state.nextBranch line rest).problems := by
  unfold nextBranch
  split
  · exact problems_report state line _
  · split
    · exact problems_report state line _
    · split
      · exact problems_condition state line rest
      · exact List.prefix_rfl

theorem problems_lastBranch : state.problems <+: (state.lastBranch line).problems := by
  unfold lastBranch
  split
  · exact problems_report state line _
  · split
    · exact problems_report state line _
    · exact List.prefix_rfl

theorem problems_closeGroup : state.problems <+: (state.closeGroup line).problems := by
  unfold closeGroup
  split
  · exact problems_report state line _
  · exact List.prefix_rfl

theorem problems_directive (directive : Directive) :
    state.problems <+: (state.directive line directive).problems := by
  cases directive with
  | nothing | foreign => exact List.prefix_rfl
  | define rest =>
    rw [State.directive]
    split
    · exact problems_define state line rest
    · exact List.prefix_rfl
  | undefine rest =>
    rw [State.directive]
    split
    · exact problems_undefine state line rest
    · exact List.prefix_rfl
  | announce rest =>
    rw [State.directive]
    split
    · exact problems_report state line _
    · exact List.prefix_rfl
  | openNamed opener wanted rest =>
    rw [State.directive]
    split
    · exact problems_testName state line opener wanted rest
    · exact List.prefix_rfl
  | openCondition rest =>
    rw [State.directive]
    split
    · exact problems_condition state line rest
    · exact List.prefix_rfl
  | orCondition rest => exact problems_nextBranch state line rest
  | otherwise => exact problems_lastBranch state line
  | close => exact problems_closeGroup state line

theorem problems_expandSegments (segments : List Comment.Segment) :
    state.problems <+: (state.expandSegments line segments).2.problems := by
  fun_induction expandSegments state line segments with
  | case1 => exact List.prefix_rfl
  | case2 state text rest later final expanded ih => simpa [expanded] using ih
  | case3 state text rest expansion _ later final expanded ih => simpa [expanded] using ih
  | case4 state text rest problem _ later final expanded ih =>
    rw [expanded] at ih
    exact (problems_reportExpansion state line problem).trans ih

theorem problems_codeLine (text : List Char) :
    state.problems <+: (state.codeLine line text).2.problems := by
  unfold codeLine
  split
  · exact List.prefix_rfl
  · exact problems_expandSegments state line _

end State

theorem problems_run (state : State) (number : Nat) (lines : List (List Char)) :
    state.problems <+: (run state number lines).2.problems := by
  fun_induction run state number lines with
  | case1 => exact List.prefix_rfl
  | case2 state number line rest marked joined _ directive here later final ran ih =>
    rw [ran] at ih
    exact (State.problems_directive state number directive).trans ih
  | case3 state number line rest plain active text expanded code later final ran ih =>
    have problems := State.problems_codeLine state number line
    rw [code] at problems
    rw [ran] at ih
    exact problems.trans ih
  | case4 state number line rest plain inactive ih => exact ih

/-! ## The outcome of more text -/

/-- The outcome of a text of `total` lines begins with that of its first `count` lines. Of
    the errors, only one about a group that was still open after those may be gone. -/
structure Outcome.Begins (first whole : Outcome) (count total : Nat) : Prop where
  kept : first.kept <+: whole.kept
  code : first.kept ≠ [] → Text.lines first.codeText <+: Text.lines whole.codeText
  agrees : ∀ number ≤ first.kept.length, whole.lineMap.get? number = first.lineMap.get? number
  beyond : ∀ number, first.kept.length < number → number ≤ whole.kept.length →
    ∃ origin, whole.lineMap.get? number = some origin ∧ count < origin ∧ origin ≤ total
  errors : ∀ error : Located Problem, (∀ opener, error.content ≠ .unterminatedGroup opener) →
    first.errors.count error ≤ whole.errors.count error

theorem count_outcomeOf {error : Located Problem}
    (closed : ∀ opener, error.content ≠ .unterminatedGroup opener) (text : List Char) :
    (outcomeOf text).errors.count error =
      (run .initial 1 (Text.lines text)).2.problems.count error := by
  have notOpen : error ∉ unterminated (run .initial 1 (Text.lines text)).2 := by
    intro member
    obtain ⟨group, _, rfl⟩ := List.mem_map.mp member
    exact closed group.opener rfl
  show (Located.sortByLine _).count error = _
  rw [Located.sortByLine, (List.mergeSort_perm _ _).count_eq, List.count_append,
    List.count_eq_zero.mpr notOpen, Nat.add_zero]

theorem get?_lineMap (outcome : Outcome) (index : Nat) :
    outcome.lineMap.get? (index + 1) = outcome.kept[index]?.map (·.origin) := by
  rw [Outcome.lineMap, LineMap.get?_ofOrigins_succ, List.getElem?_map]

section Append

variable {first whole : Outcome} {later : List KeptLine}

theorem get?_lineMap_of_append (kept : whole.kept = first.kept ++ later) {number : Nat}
    (inside : number ≤ first.kept.length) :
    whole.lineMap.get? number = first.lineMap.get? number := by
  cases number with
  | zero =>
    rw [Outcome.lineMap, Outcome.lineMap, LineMap.get?_ofOrigins_zero, LineMap.get?_ofOrigins_zero]
  | succ index => rw [get?_lineMap, get?_lineMap, kept, List.getElem?_append_left inside]

theorem exists_get?_lineMap_of_append (kept : whole.kept = first.kept ++ later) {number : Nat}
    (beyond : first.kept.length < number) (inside : number ≤ whole.kept.length) :
    ∃ line ∈ later, whole.lineMap.get? number = some line.origin := by
  obtain ⟨index, rfl⟩ := Nat.exists_eq_add_of_lt beyond
  have last : index < later.length := by
    rw [kept, List.length_append] at inside
    omega
  refine ⟨later[index], List.getElem_mem last, ?_⟩
  rw [get?_lineMap, kept, List.getElem?_append_right (Nat.le_add_right _ _),
    Nat.add_sub_cancel_left, List.getElem?_eq_getElem last]
  rfl

end Append

/-- What a text keeps stays in front when more text comes after it. The text must not end
    inside a directive, which would take the first line of what comes after it. -/
theorem preprocess_begins {front : String}
    (closed : endsOpen .initial 1 (Text.lines front.toList) = false) (back : String) :
    (preprocess front).Begins (preprocess (front ++ "\n" ++ back))
      (Text.lineCount front.toList) (Text.lineCount (front ++ "\n" ++ back).toList) := by
  have lines : Text.lines (front ++ "\n" ++ back).toList =
      Text.lines front.toList ++ Text.lines back.toList := by
    rw [← Text.lines_append]
    simp
  have ran := run_append_of_closed closed (Text.lines back.toList)
  rw [← lines] at ran
  have kept : (preprocess (front ++ "\n" ++ back)).kept = (preprocess front).kept ++ _ :=
    congrArg Prod.fst ran
  refine ⟨⟨_, kept.symm⟩, ?_, fun _ => get?_lineMap_of_append kept, ?_, ?_⟩
  · intro nonempty
    have whole : (preprocess (front ++ "\n" ++ back)).kept ≠ [] := by
      rw [kept]
      exact List.append_ne_nil_of_left_ne_nil nonempty _
    rw [preprocess, preprocess, lines_codeText nonempty, lines_codeText whole]
    exact List.IsPrefix.map _ ⟨_, kept.symm⟩
  · intro number beyond inside
    obtain ⟨line, member, mapped⟩ := exists_get?_lineMap_of_append kept beyond inside
    have bounds := origin_bounds member
    refine ⟨line.origin, mapped, ?_⟩
    unfold Text.lineCount
    rw [lines, List.length_append]
    omega
  · intro error notOpen
    rw [preprocess, preprocess, count_outcomeOf notOpen, count_outcomeOf notOpen, ran]
    exact (problems_run _ _ _).sublist.count_le error

/-- A later line closes a group that the text leaves open. -/
theorem preprocess_begins_closing :
    (preprocess "#ifndef A\nfloat a;\n#else\n#else").kept = [⟨2, "float a;".toList⟩] ∧
      (preprocess "#ifndef A\nfloat a;\n#else\n#else").Begins
        (preprocess ("#ifndef A\nfloat a;\n#else\n#else" ++ "\n" ++ "#endif\nfloat b;")) 4 6 :=
  ⟨by decide +kernel, preprocess_begins (by decide +kernel) _⟩

end Multipass.Preprocess
