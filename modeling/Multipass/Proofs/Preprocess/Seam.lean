import Multipass.Proofs.Preprocess.Directive
import Multipass.Proofs.Preprocess.Run
import Multipass.Proofs.Text.Blank

/-!
# A run over two texts

A run over one text and then another is the run over the first, followed by a run
over the second from the state that the first leaves, unless the first ends inside a
directive that continues. With an empty line in between, such a directive takes the
empty line and ends there.
-/

namespace Multipass.Preprocess

namespace Directive

/-- Do the lines end before the directive does? -/
def goesOn (joined : List Char × List (List Char) × List (List Char)) : Bool :=
  joined.2.2.isEmpty && joined.1.getLast? == some '\\'

theorem joinContinuations_of_ended {text : List Char} {front : List (List Char)}
    (ended : goesOn (joinContinuations text front) = false) (back : List (List Char)) :
    joinContinuations text (front ++ back) =
      ((joinContinuations text front).1, (joinContinuations text front).2.1,
        (joinContinuations text front).2.2 ++ back) := by
  induction front generalizing text with
  | nil =>
    have last : text.getLast? ≠ some '\\' := by
      simpa [goesOn, joinContinuations] using ended
    cases back with
    | nil => rfl
    | cons next rest =>
      simp [joinContinuations, last]
  | cons next rest ih =>
    rw [List.cons_append]
    unfold joinContinuations at ended ⊢
    split
    · rename_i last
      rw [if_pos last] at ended
      rw [ih ended]
    · rfl

theorem joinContinuations_of_goesOn {text : List Char} {front : List (List Char)}
    (continues : goesOn (joinContinuations text front) = true) (back : List (List Char)) :
    joinContinuations text (front ++ [] :: back) =
      ((joinContinuations text front).1.dropLast ++ [' '], front ++ [[]], back) := by
  induction front generalizing text with
  | nil =>
    have last : text.getLast? = some '\\' := by
      simpa [goesOn, joinContinuations] using continues
    cases back with
    | nil => simp [joinContinuations, last, Text.trim, Text.trimStart, Text.trimEnd, Text.dropTrailing]
    | cons next rest =>
      simp [joinContinuations, last, Text.trim, Text.trimStart, Text.trimEnd, Text.dropTrailing]
  | cons next rest ih =>
    rw [List.cons_append]
    unfold joinContinuations at continues ⊢
    split
    · rename_i last
      rw [if_pos last] at continues
      rw [ih continues]
      rfl
    · rename_i last
      simp [goesOn, last] at continues

/-- The line with which the lines of a directive end shows that the directive goes on. -/
theorem last_of_goesOn {text : List Char} {following : List (List Char)}
    (continues : goesOn (joinContinuations text following) = true) :
    (following = [] ∧ text.getLast? = some '\\') ∨
      ∃ last, following.getLast? = some last ∧ (Text.trim last).getLast? = some '\\' := by
  induction following generalizing text with
  | nil => exact .inl ⟨rfl, by simpa [goesOn, joinContinuations] using continues⟩
  | cons next rest ih =>
    refine .inr ?_
    unfold joinContinuations at continues
    split at continues
    · rcases ih continues with ⟨rfl, ends⟩ | ⟨last, isLast, ends⟩
      · refine ⟨next, rfl, ?_⟩
        rw [List.getLast?_append, List.getLast?_cons] at ends
        cases trimmed : (Text.trim next).getLast? with
        | none => simp [trimmed] at ends
        | some c => simpa [trimmed] using ends
      · refine ⟨last, ?_, ends⟩
        rw [List.getLast?_cons, isLast, Option.getD_some]
    · simp [goesOn] at continues

theorem keyword_concat (text : List Char) {c : Char} (notHash : c ≠ '#')
    (notLetter : c.isAlpha = false) : keyword (text ++ [c]) = keyword text := by
  have afterHash : (text ++ [c]).dropWhile (· == '#') = text.dropWhile (· == '#') ++ [c] := by
    rw [List.dropWhile_append]
    split
    · rename_i empty
      simp [List.isEmpty_iff.mp empty, notHash]
    · rfl
  unfold keyword body Text.trimStart
  rw [afterHash, List.dropWhile_append]
  split
  · rename_i empty
    rw [List.isEmpty_iff.mp empty, List.dropWhile_cons]
    split <;> simp [notLetter]
  · rw [List.takeWhile_append]
    split
    · rename_i whole
      rw [List.takeWhile_cons, notLetter]
      simpa using ((List.takeWhile_sublist _).eq_of_length whole).symm
    · rfl

/-- Taking an empty line in leaves a directive the compiler's or not. -/
theorem foreign_iff_of_goesOn {text : List Char} (last : text.getLast? = some '\\') :
    ofText (text.dropLast ++ [' ']) = .foreign ↔ ofText text = .foreign := by
  have whole : text.dropLast ++ ['\\'] = text := by
    rw [List.getLast?_eq_some_iff] at last
    obtain ⟨front, rfl⟩ := last
    rw [List.dropLast_concat]
  have same : keyword (text.dropLast ++ [' ']) = keyword text := by
    conv => rhs; rw [← whole]
    rw [keyword_concat _ (by decide) (by decide), keyword_concat _ (by decide) (by decide)]
  rw [ofText_eq, ofText_eq, same]
  exact ofKeyword_foreign_iff _ _ _

/-- The number of the line after a directive and the lines that are left after it. -/
theorem number_after (number : Nat) (text line : List Char) (rest : List (List Char)) :
    number + 1 + (joinContinuations text rest).2.1.length +
      (joinContinuations text rest).2.2.length = number + (line :: rest).length := by
  have whole := congrArg List.length (joinContinuations_append text rest)
  rw [List.length_append] at whole
  rw [List.length_cons]
  omega

end Directive

/-- Does a run over the lines end inside a directive that continues? -/
def endsOpen (state : State) (number : Nat) (lines : List (List Char)) : Bool :=
  match lines with
  | [] => false
  | line :: rest =>
    if !state.insideComment && Directive.isDirectiveLine line then
      let joined := Directive.joinContinuations (Text.trim line) rest
      have : (Directive.joinContinuations (Text.trim line) rest).2.2.length ≤ rest.length :=
        Directive.remaining_length_le (Text.trim line) rest
      Directive.goesOn joined || endsOpen (state.directive number (Directive.ofText joined.1))
        (number + 1 + joined.2.1.length) joined.2.2
    else if state.active then endsOpen (state.codeLine number line).2 (number + 1) rest
    else endsOpen state (number + 1) rest
  termination_by lines.length

/-- Where a directive goes on beyond the last line, that line ends in a backslash. -/
theorem last_of_endsOpen {state : State} {number : Nat} {lines : List (List Char)}
    (opens : endsOpen state number lines = true) :
    ∃ last, lines.getLast? = some last ∧ (Text.trimEnd last).getLast? = some '\\' := by
  fun_induction run state number lines with
  | case1 state number => simp [endsOpen] at opens
  | case2 state number line rest marked joined _ directive here later final ran ih =>
    rw [endsOpen, if_pos marked] at opens
    have whole : joined.2.1 ++ joined.2.2 = rest := Directive.joinContinuations_append _ _
    rw [List.getLast?_cons]
    cases continues : Directive.goesOn joined with
    | true =>
      rcases Directive.last_of_goesOn continues with ⟨rfl, ends⟩ | ⟨last, isLast, ends⟩
      · exact ⟨line, rfl, Text.getLast?_trimEnd_of_trim ends⟩
      · exact ⟨last, by rw [isLast, Option.getD_some], Text.getLast?_trimEnd_of_trim ends⟩
    | false =>
      simp only [joined] at continues
      simp only [continues, Bool.false_or] at opens
      obtain ⟨last, isLast, ends⟩ := ih opens
      refine ⟨last, ?_, ends⟩
      rw [← whole, List.getLast?_append, isLast]
      rfl
  | case3 state number line rest plain active text expanded code later final ran ih =>
    rw [endsOpen, if_neg plain, if_pos active, code] at opens
    obtain ⟨last, isLast, ends⟩ := ih opens
    exact ⟨last, by rw [List.getLast?_cons, isLast, Option.getD_some], ends⟩
  | case4 state number line rest plain inactive ih =>
    rw [endsOpen, if_neg plain, if_neg inactive] at opens
    obtain ⟨last, isLast, ends⟩ := ih opens
    exact ⟨last, by rw [List.getLast?_cons, isLast, Option.getD_some], ends⟩

theorem run_append_of_closed {state : State} {number : Nat} {front : List (List Char)}
    (closed : endsOpen state number front = false) (back : List (List Char)) :
    run state number (front ++ back) =
      ((run state number front).1 ++
          (run (run state number front).2 (number + front.length) back).1,
        (run (run state number front).2 (number + front.length) back).2) := by
  fun_induction run state number front with
  | case1 state number => simp
  | case2 state number line rest marked joined _ directive here later final ran ih =>
    rw [endsOpen, if_pos marked] at closed
    simp only [Bool.or_eq_false_iff] at closed
    have lengths : number + 1 + joined.2.1.length + joined.2.2.length =
        number + (line :: rest).length := Directive.number_after _ _ _ _
    have remaining := ih closed.2
    rw [ran, lengths] at remaining
    rw [List.cons_append, run_directive marked (Directive.joinContinuations_of_ended closed.1 back)]
    simp only [joined, directive, here] at remaining ⊢
    rw [remaining, List.append_assoc]
    rfl
  | case3 state number line rest plain active text expanded code later final ran ih =>
    rw [endsOpen, if_neg plain, if_pos active, code] at closed
    have remaining := ih closed
    rw [ran, Nat.add_assoc, Nat.add_comm 1] at remaining
    rw [List.cons_append, run_code plain active, code, remaining]
    rfl
  | case4 state number line rest plain inactive ih =>
    rw [endsOpen, if_neg plain, if_neg inactive] at closed
    have remaining := ih closed
    rw [Nat.add_assoc, Nat.add_comm 1] at remaining
    rw [List.cons_append, run_skipped plain inactive, remaining]
    rfl

/-- What a run makes of an empty line between two texts: `separator` is what it keeps
    of the line, and `next` the state after it. The line is kept in text that is kept,
    and it is lost when a directive of the first text takes it, unless the directive
    is the compiler's. -/
structure IsSeam (state : State) (number : Nat) (front back : List (List Char))
    (separator : List KeptLine) (next : State) : Prop where
  kept : (run state number (front ++ [] :: back)).1 =
    (run state number front).1 ++ separator ++ (run next (number + front.length + 1) back).1
  origin : ∀ line ∈ separator, line.origin = number + front.length
  short : separator.length ≤ 1
  empty_iff : (run state number front).1 = [] →
    (separator = [] ↔ endsOpen state number front = true ∨
      (run state number front).2.active = false)

theorem exists_seam_of_closed {state : State} {number : Nat} {front : List (List Char)}
    (closed : endsOpen state number front = false) (back : List (List Char)) :
    ∃ separator next, IsSeam state number front back separator next := by
  have whole := congrArg Prod.fst (run_append_of_closed closed ([] :: back))
  have plain : ¬ (!(run state number front).2.insideComment &&
      Directive.isDirectiveLine []) = true := by
    simp [Directive.isDirectiveLine, Text.trimStart]
  by_cases active : (run state number front).2.active = true
  · rw [run_code plain active] at whole
    refine ⟨[_], _, by simpa using whole, by simp, by simp, ?_⟩
    simp [closed, active]
  · rw [run_skipped plain active] at whole
    refine ⟨[], _, by simpa using whole, by simp, by simp, ?_⟩
    intro _
    simpa using Or.inr (by simpa using active)

/-- What is kept where a directive of the first text takes the empty line: with nothing of the first
    text the empty line is lost. -/
structure IsTaken (state : State) (number : Nat) (front back : List (List Char))
    (separator : List KeptLine) (next : State) : Prop where
  kept : (run state number (front ++ [] :: back)).1 =
    (run state number front).1 ++ separator ++ (run next (number + front.length + 1) back).1
  origin : ∀ line ∈ separator, line.origin = number + front.length
  short : separator.length ≤ 1
  lost : (run state number front).1 = [] → separator = []

/-- Lines in front that are gone through in both runs alike. -/
theorem IsTaken.behind {state later next : State} {number behind : Nat}
    {front rest back : List (List Char)} {here separator : List KeptLine}
    (taken : IsTaken later behind rest back separator next)
    (lengths : behind + rest.length = number + front.length)
    (alone : (run state number front).1 = here ++ (run later behind rest).1)
    (together : (run state number (front ++ [] :: back)).1 =
      here ++ (run later behind (rest ++ [] :: back)).1) :
    IsTaken state number front back separator next := by
  refine ⟨?_, ?_, taken.short, fun nothing => ?_⟩
  · rw [together, alone, taken.kept, lengths]
    simp only [List.append_assoc]
  · rw [← lengths]
    exact taken.origin
  · rw [alone] at nothing
    exact taken.lost (List.append_eq_nil_iff.mp nothing).2

/-- The compiler's directive keeps the empty line that it takes, any other loses it. -/
theorem exists_taken_of_goesOn {state : State} {number : Nat} {line : List Char}
    {rest : List (List Char)}
    (marked : (!state.insideComment && Directive.isDirectiveLine line) = true)
    (continues : Directive.goesOn (Directive.joinContinuations (Text.trim line) rest) = true)
    (back : List (List Char)) :
    ∃ separator next, IsTaken state number (line :: rest) back separator next := by
  generalize joins : Directive.joinContinuations (Text.trim line) rest = joined at continues
  obtain ⟨noneLeft, last⟩ : joined.2.2 = [] ∧ joined.1.getLast? = some '\\' := by
    simpa [Directive.goesOn] using continues
  have taken : joined.2.1 = rest := by
    have whole := Directive.joinContinuations_append (Text.trim line) rest
    rwa [joins, noneLeft, List.append_nil] at whole
  have alone : (run state number (line :: rest)).1 =
      if Directive.ofText joined.1 = .foreign && state.active then keepFrom number (line :: rest)
      else [] := by
    rw [run_directive marked joins, taken, noneLeft, run, List.append_nil]
  have lineAfter : number + 1 + (rest ++ [[]]).length = number + (line :: rest).length + 1 := by
    simp only [List.length_append, List.length_cons, List.length_nil]
    omega
  have together : (run state number (line :: rest ++ [] :: back)).1 = _ :=
    congrArg Prod.fst (run_directive marked
      (Directive.joinContinuations_of_goesOn (joins ▸ continues) back))
  simp only [joins, lineAfter, Directive.foreign_iff_of_goesOn last] at together
  by_cases owned : (Directive.ofText joined.1 = .foreign && state.active) = true
  · rw [if_pos owned] at alone together
    refine ⟨[⟨number + (line :: rest).length, []⟩],
      state.directive number (Directive.ofText (joined.1.dropLast ++ [' '])),
      ?_, by simp, by simp, by simp [alone, keepFrom]⟩
    rw [together, alone, ← List.cons_append, keepFrom_append]
    rfl
  · rw [if_neg owned] at alone together
    refine ⟨[], state.directive number (Directive.ofText (joined.1.dropLast ++ [' '])),
      ?_, by simp, by simp, fun _ => rfl⟩
    rw [together, alone]
    rfl

theorem exists_taken_of_open {state : State} {number : Nat} {front : List (List Char)}
    (opens : endsOpen state number front = true) (back : List (List Char)) :
    ∃ separator next, IsTaken state number front back separator next := by
  fun_induction endsOpen state number front with
  | case1 => cases opens
  | case2 state number line rest marked joined _ ih =>
    cases continues : Directive.goesOn joined with
    | true => exact exists_taken_of_goesOn marked continues back
    | false =>
      rw [continues, Bool.false_or] at opens
      obtain ⟨separator, next, taken⟩ := ih opens
      have alone : (run state number (line :: rest)).1 = _ :=
        congrArg Prod.fst (run_directive marked rfl)
      have together : (run state number (line :: rest ++ [] :: back)).1 = _ :=
        congrArg Prod.fst (run_directive marked
          (Directive.joinContinuations_of_ended continues ([] :: back)))
      exact ⟨separator, next, taken.behind (Directive.number_after _ _ _ _) alone together⟩
  | case3 state number line rest plain active ih =>
    obtain ⟨separator, next, taken⟩ := ih opens
    have code (lines : List (List Char)) : (run state number (line :: lines)).1 =
        [⟨number, (state.codeLine number line).1⟩] ++
          (run (state.codeLine number line).2 (number + 1) lines).1 :=
      congrArg Prod.fst (run_code plain active)
    refine ⟨separator, next, taken.behind ?_ (code rest) (code (rest ++ [] :: back))⟩
    rw [List.length_cons]
    omega
  | case4 state number line rest plain inactive ih =>
    obtain ⟨separator, next, taken⟩ := ih opens
    have skipped (lines : List (List Char)) : (run state number (line :: lines)).1 =
        [] ++ (run state (number + 1) lines).1 :=
      congrArg Prod.fst (run_skipped plain inactive)
    refine ⟨separator, next, taken.behind ?_ (skipped rest) (skipped (rest ++ [] :: back))⟩
    rw [List.length_cons]
    omega

theorem exists_seam_of_open {state : State} {number : Nat} {front : List (List Char)}
    (opens : endsOpen state number front = true) (back : List (List Char)) :
    ∃ separator next, IsSeam state number front back separator next := by
  obtain ⟨separator, next, taken⟩ := exists_taken_of_open opens back
  exact ⟨separator, next, taken.kept, taken.origin, taken.short,
    fun nothing => ⟨fun _ => .inl opens, fun _ => taken.lost nothing⟩⟩

/-- A run over two texts with an empty line in between keeps what a run over the first
    keeps, then perhaps the empty line, then lines of the second. -/
theorem exists_seam (state : State) (number : Nat) (front back : List (List Char)) :
    ∃ separator next, IsSeam state number front back separator next := by
  cases ends : endsOpen state number front with
  | true => exact exists_seam_of_open ends back
  | false => exact exists_seam_of_closed ends back

/-- On which side of the seam a kept line stands is on which side its origin lies. -/
theorem IsSeam.side {state next : State} {number : Nat} {front back : List (List Char)}
    {separator : List KeptLine} (seam : IsSeam state number front back separator next)
    {index : Nat} {kept : KeptLine}
    (found : (run state number (front ++ [] :: back)).1[index]? = some kept) :
    (index < (run state number front).1.length ∧ kept.origin < number + front.length) ∨
      (index < (run state number front).1.length + separator.length ∧
        kept.origin = number + front.length) ∨
      ((run state number front).1.length + separator.length ≤ index ∧
        number + front.length < kept.origin) := by
  rw [seam.kept, List.append_assoc] at found
  by_cases inFront : index < (run state number front).1.length
  · rw [List.getElem?_append_left inFront] at found
    exact .inl ⟨inFront, (origin_bounds (List.mem_of_getElem? found)).2⟩
  · rw [List.getElem?_append_right (by omega)] at found
    by_cases between : index - (run state number front).1.length < separator.length
    · rw [List.getElem?_append_left between] at found
      exact .inr (.inl ⟨by omega, seam.origin kept (List.mem_of_getElem? found)⟩)
    · rw [List.getElem?_append_right (by omega)] at found
      have bound := (origin_bounds (List.mem_of_getElem? found)).1
      exact .inr (.inr ⟨by omega, by omega⟩)

end Multipass.Preprocess
