import Multipass.Proofs.Preprocess.CodeLine

/-!
# Which lines are directives

A run follows comments on lines of code only. A comment that a directive or a left-out line
opens ends with that line. So the lines that are handled as directives are those that begin with
`#` outside of the block comments of the lines of code, the other lines read as empty; and
where no other line leaves a comment open, these are the block comments of the whole text.
-/

namespace Multipass.Preprocess

/-- Is the line with a number handled as a directive? -/
def IsHandled (text : List Char) (number : Nat) : Prop :=
  ∃ directive, ⟨number, .directive directive⟩ ∈ eventsOf text

/-- Does the line with a number begin inside a block comment of these lines? -/
def BeginsInBlock (lines : List (List Char)) (number : Nat) : Prop :=
  Comment.placeAfter .code (Text.terminated (lines.take (number - 1))) = .block

/-- The lines that are met as code. The other lines are empty. -/
def codeOnly (met : List (Located Event)) (number : Nat) : List (List Char) → List (List Char)
  | [] => []
  | line :: rest =>
    (if ⟨number, .code line⟩ ∈ met then line else []) :: codeOnly met (number + 1) rest

/-- Is every line in front of the one with a number met as code, or does it leave no comment
    open when it is read by itself? -/
def LeavesNoneOpen (text : List Char) (number : Nat) : Prop :=
  ∀ earlier other, 1 ≤ earlier → earlier < number → (Text.lines text)[earlier - 1]? = some other →
    ⟨earlier, .code other⟩ ∉ eventsOf text → Comment.placeAfter .code other ≠ .block

/-! ## One line at a time -/

/-- What a run meets on a line that continues nowhere, and the state in which it goes on. -/
inductive Meets (state : State) (number : Nat) (line : List Char) : Option Event → State → Prop
  | directive : (!state.insideComment && Directive.isDirectiveLine line) = true →
      Meets state number line (some (.directive (Directive.ofText (Text.trim line))))
        (state.directive number (Directive.ofText (Text.trim line)))
  | code : ¬ (!state.insideComment && Directive.isDirectiveLine line) = true →
      state.active = true → Meets state number line (some (.code line)) (state.codeLine number line).2
  | leftOut : ¬ (!state.insideComment && Directive.isDirectiveLine line) = true →
      ¬ state.active = true → Meets state number line none state

section Lines

variable {state next : State} {number : Nat} {line : List Char} {rest : List (List Char)}
  {event : Option Event}

/-- A directive without a backslash is one line. -/
theorem Directive.joinContinuations_of_noBackslash (noBackslash : '\\' ∉ line) :
    joinContinuations (Text.trim line) rest = (Text.trim line, [], rest) := by
  have ends : (Text.trim line).getLast? ≠ some '\\' := fun last =>
    noBackslash (Text.trim_subset line (List.mem_of_getLast? last))
  cases rest with
  | nil => rfl
  | cons following later => rw [joinContinuations, if_neg ends]

theorem exists_meets (state : State) (number : Nat) (noBackslash : '\\' ∉ line)
    (rest : List (List Char)) :
    ∃ event next, Meets state number line event next ∧
      events state number (line :: rest) =
        event.toList.map (⟨number, ·⟩) ++ events next (number + 1) rest := by
  by_cases marked : (!state.insideComment && Directive.isDirectiveLine line) = true
  · refine ⟨_, _, .directive marked, ?_⟩
    rw [events_directive marked (Directive.joinContinuations_of_noBackslash noBackslash)]
    rfl
  · by_cases active : state.active = true
    · exact ⟨_, _, .code marked active, by rw [events_code marked active]; rfl⟩
    · refine ⟨_, _, .leftOut marked active, ?_⟩
      rw [events, if_neg marked, if_neg active]
      rfl

namespace Meets

/-- The line as it is read for comments. -/
def seen (line : List Char) (event : Option Event) : List Char :=
  if event = some (.code line) then line else []

theorem noBreak_seen (oneLine : '\n' ∉ line) : '\n' ∉ seen line event := by
  unfold seen
  split
  · exact oneLine
  · exact List.not_mem_nil

theorem isDirective_iff (meets : Meets state number line event next) :
    (∃ directive, event = some (.directive directive)) ↔
      (!state.insideComment && Directive.isDirectiveLine line) = true := by
  cases meets with
  | directive marked => simp [marked]
  | code plain | leftOut plain => simpa using plain

theorem insideComment (meets : Meets state number line event next) :
    next.insideComment = Comment.insideAfter state.insideComment (seen line event) := by
  have nothing : ∀ inside, Comment.insideAfter inside [] = inside := by decide +kernel
  cases meets with
  | directive =>
    rw [State.directive_insideComment, seen, if_neg (by simp), nothing]
  | code =>
    rw [State.codeLine_insideComment, seen, if_pos rfl]
  | leftOut =>
    rw [seen, if_neg (by simp), nothing]

/-- A comment is open only where text is kept. -/
theorem active_of_insideComment (meets : Meets state number line event next)
    (visible : state.insideComment = true → state.active = true)
    (inside : next.insideComment = true) : next.active = true := by
  cases meets with
  | directive marked =>
    rw [State.directive_insideComment] at inside
    simp [inside] at marked
  | code plain active => rw [State.codeLine_active, active]
  | leftOut => exact visible inside

/-- A line that is not code leads where a reader of it goes, if it leaves no comment open. -/
theorem insideComment_of_closed (meets : Meets state number line event next)
    (visible : state.insideComment = true → state.active = true) (oneLine : '\n' ∉ line)
    (closed : event ≠ some (.code line) → Comment.placeAfter .code line ≠ .block) :
    next.insideComment = Comment.insideAfter state.insideComment line := by
  have stays (outside : state.insideComment = false) (notCode : event ≠ some (.code line)) :
      state.insideComment = Comment.insideAfter state.insideComment line := by
    have opens : Comment.placeAfter (.ofInside false) line = .block ↔
        Comment.insideAfter false line = true := Comment.placeAfter_eq_block_iff oneLine
    rw [outside]
    exact (Bool.eq_false_iff.mpr (mt opens.mpr (closed notCode))).symm
  cases meets with
  | directive marked =>
    rw [State.directive_insideComment]
    exact stays (by simpa using ((Bool.and_eq_true _ _).mp marked).1) (by simp)
  | code => exact State.codeLine_insideComment state number line
  | leftOut _ inactive =>
    exact stays (Bool.eq_false_iff.mpr fun inside => inactive (visible inside)) (by simp)

end Meets

/-- What is met on a line, the first one of those that are left. -/
theorem mem_first_iff {content : Event} :
    ⟨number, content⟩ ∈ event.toList.map (⟨number, ·⟩) ++ events next (number + 1) rest ↔
      event = some content := by
  constructor
  · intro member
    rcases List.mem_append.mp member with here | later
    · obtain ⟨met, isEvent, same⟩ := List.mem_map.mp here
      cases same
      exact Option.mem_toList.mp isEvent
    · have beyond : number + 1 ≤ number := (isMetIn_of_mem_events later).le
      omega
  · rintro rfl
    exact List.mem_append_left _ (List.mem_singleton_self _)

theorem mem_later_iff {met : Located Event} (beyond : number < met.line) :
    met ∈ event.toList.map (⟨number, ·⟩) ++ events next (number + 1) rest ↔
      met ∈ events next (number + 1) rest := by
  rw [List.mem_append, or_iff_right]
  intro here
  obtain ⟨content, -, rfl⟩ := List.mem_map.mp here
  exact Nat.lt_irrefl _ beyond

end Lines

/-! ## Reading the lines of code -/

theorem codeOnly_congr {met other : List (Located Event)} {number : Nat}
    (same : ∀ event : Located Event, number ≤ event.line → (event ∈ met ↔ event ∈ other))
    (lines : List (List Char)) : codeOnly met number lines = codeOnly other number lines := by
  induction lines generalizing number with
  | nil => rfl
  | cons line rest ih =>
    have later := ih fun event beyond => same event (Nat.le_of_succ_le beyond)
    have here := same ⟨number, .code line⟩ (Nat.le_refl number)
    simp only [codeOnly, later, here]

section Reading

variable {state next : State} {number : Nat} {line : List Char} {rest lines : List (List Char)}
  {event : Option Event}

theorem codeOnly_cons (event : Option Event) (next : State) (number : Nat) (line : List Char)
    (rest : List (List Char)) :
    codeOnly (event.toList.map (⟨number, ·⟩) ++ events next (number + 1) rest) number (line :: rest) =
      Meets.seen line event :: codeOnly (events next (number + 1) rest) (number + 1) rest := by
  have later : codeOnly (event.toList.map (⟨number, ·⟩) ++ events next (number + 1) rest) (number + 1)
      rest = codeOnly (events next (number + 1) rest) (number + 1) rest :=
    codeOnly_congr (fun _ beyond => mem_later_iff beyond) rest
  rw [codeOnly, later, Meets.seen]
  simp only [mem_first_iff]

theorem placeAfter_terminated_cons {inside : Bool} (oneLine : '\n' ∉ line)
    (rest : List (List Char)) :
    Comment.placeAfter (.ofInside inside) (Text.terminated (line :: rest)) =
      Comment.placeAfter (.ofInside (Comment.insideAfter inside line)) (Text.terminated rest) := by
  rw [Text.terminated_cons, Comment.placeAfter_line_append oneLine]

/-- A run handles a line as a directive if it begins with `#` and the lines of code in front of
    it leave no comment open. -/
theorem isHandled_iff_of_lines (state : State) (number : Nat)
    (noBackslash : ∀ line ∈ lines, '\\' ∉ line) (oneLine : ∀ line ∈ lines, '\n' ∉ line)
    {index : Nat} (found : lines[index]? = some line) :
    (∃ directive, ⟨number + index, .directive directive⟩ ∈ events state number lines) ↔
      Directive.isDirectiveLine line = true ∧
        Comment.placeAfter (.ofInside state.insideComment)
          (Text.terminated ((codeOnly (events state number lines) number lines).take index)) ≠
            .block := by
  induction lines generalizing state number index with
  | nil => cases found
  | cons first rest ih =>
    obtain ⟨event, next, meets, met⟩ :=
      exists_meets state number (noBackslash first List.mem_cons_self) rest
    rw [met, codeOnly_cons]
    cases index with
    | zero =>
      cases found
      simp only [Nat.add_zero, mem_first_iff, meets.isDirective_iff, List.take_zero]
      cases state.insideComment <;> simp [Comment.Place.ofInside, Comment.placeAfter, Text.terminated]
    | succ index =>
      have later := ih next (number + 1) (List.forall_mem_cons.mp noBackslash).2
        (List.forall_mem_cons.mp oneLine).2 found
      have place : number + (index + 1) = number + 1 + index := by omega
      rw [List.take_succ_cons,
        placeAfter_terminated_cons (Meets.noBreak_seen (oneLine first List.mem_cons_self)),
        ← meets.insideComment, ← later, place]
      exact exists_congr fun directive => mem_later_iff (Nat.lt_of_succ_le (Nat.le_add_right _ _))

/-- Lines that are not code change nothing for a reader, if they leave no comment open. -/
theorem placeAfter_codeOnly {number count : Nat} (noBackslash : ∀ line ∈ lines, '\\' ∉ line)
    (oneLine : ∀ line ∈ lines, '\n' ∉ line)
    (visible : state.insideComment = true → state.active = true)
    (closed : ∀ index line, index < count → lines[index]? = some line →
      ⟨number + index, .code line⟩ ∉ events state number lines →
        Comment.placeAfter .code line ≠ .block) :
    Comment.placeAfter (.ofInside state.insideComment)
        (Text.terminated ((codeOnly (events state number lines) number lines).take count)) =
      Comment.placeAfter (.ofInside state.insideComment) (Text.terminated (lines.take count)) := by
  induction lines generalizing state number count with
  | nil => rfl
  | cons first rest ih =>
    obtain ⟨event, next, meets, met⟩ :=
      exists_meets state number (noBackslash first List.mem_cons_self) rest
    cases count with
    | zero => rfl
    | succ count =>
      rw [met] at closed
      rw [met, codeOnly_cons]
      have firstOneLine : '\n' ∉ first := oneLine first List.mem_cons_self
      have leads : next.insideComment = Comment.insideAfter state.insideComment first :=
        meets.insideComment_of_closed visible firstOneLine fun notCode =>
          closed 0 first (Nat.succ_pos count) rfl (mt mem_first_iff.mp notCode)
      have laterClosed : ∀ index line, index < count → rest[index]? = some line →
          ⟨number + 1 + index, .code line⟩ ∉ events next (number + 1) rest →
            Comment.placeAfter .code line ≠ .block := by
        intro index line inFront found notCode
        have place : number + 1 + index = number + (index + 1) := by omega
        rw [place] at notCode
        refine closed (index + 1) line (Nat.succ_lt_succ inFront) found fun member => notCode ?_
        exact (mem_later_iff (Nat.lt_add_of_pos_right (Nat.succ_pos index))).mp member
      have later := ih (List.forall_mem_cons.mp noBackslash).2 (List.forall_mem_cons.mp oneLine).2
        (meets.active_of_insideComment visible) laterClosed
      rw [List.take_succ_cons, List.take_succ_cons,
        placeAfter_terminated_cons (Meets.noBreak_seen firstOneLine),
        placeAfter_terminated_cons firstOneLine, ← meets.insideComment, ← leads, later]

end Reading

/-! ## Whole texts -/

/-- A line is handled as a directive exactly if it begins with `#` outside of the block comments
    of the lines of code. These are the block comments of the text, up to a line that leaves a
    comment open and is a directive itself or is left out. -/
theorem isHandled_iff (text : List Char) (number : Nat) (line : List Char)
    (noBackslash : '\\' ∉ text) (positive : 1 ≤ number)
    (found : (Text.lines text)[number - 1]? = some line) :
    (IsHandled text number ↔ Directive.isDirectiveLine line = true ∧
        ¬ BeginsInBlock (codeOnly (eventsOf text) 1 (Text.lines text)) number) ∧
      (LeavesNoneOpen text number →
        (BeginsInBlock (codeOnly (eventsOf text) 1 (Text.lines text)) number ↔
          BeginsInBlock (Text.lines text) number)) := by
  have plain : ∀ other ∈ Text.lines text, '\\' ∉ other := fun other member slash =>
    noBackslash (Text.lines_subset member slash)
  have oneLine : ∀ other ∈ Text.lines text, '\n' ∉ other := fun _ => Text.noBreak_of_mem_lines
  obtain ⟨index, rfl⟩ : ∃ index, number = 1 + index := ⟨number - 1, by omega⟩
  rw [Nat.add_sub_cancel_left] at found
  refine ⟨?_, fun closed => ?_⟩
  · rw [BeginsInBlock, Nat.add_sub_cancel_left]
    exact isHandled_iff_of_lines .initial 1 plain oneLine found
  · have inFront : ∀ earlier other, earlier < index → (Text.lines text)[earlier]? = some other →
        ⟨1 + earlier, .code other⟩ ∉ events .initial 1 (Text.lines text) →
          Comment.placeAfter .code other ≠ .block := fun earlier other before here =>
      closed (1 + earlier) other (by omega) (by omega) (by rwa [Nat.add_sub_cancel_left])
    have same := placeAfter_codeOnly plain oneLine
      (fun inside => absurd inside Bool.false_ne_true) inFront
    rw [BeginsInBlock, BeginsInBlock, Nat.add_sub_cancel_left]
    exact Iff.of_eq (congrArg (· = Comment.Place.block) same)

/-- A comment over several lines, and an untaken branch with comments that end with their lines. -/
def commentedText : List Char := "a /*\n#b\n*/\n#ifdef A // /*\nb // /*\n#endif".toList

theorem isHandled_iff_commented :
    '\\' ∉ commentedText ∧ (Text.lines commentedText)[5]? = some "#endif".toList ∧
      LeavesNoneOpen commentedText 6 ∧ IsHandled commentedText 6 ∧
        ¬ BeginsInBlock (Text.lines commentedText) 6 := by
  have cut : Text.lines commentedText =
      ["a /*".toList, "#b".toList, "*/".toList, "#ifdef A // /*".toList, "b // /*".toList,
        "#endif".toList] := by decide +kernel
  have met : eventsOf commentedText =
      [⟨1, .code "a /*".toList⟩, ⟨2, .code "#b".toList⟩, ⟨3, .code "*/".toList⟩,
        ⟨4, .directive (.openNamed .ifDefined true "A".toList)⟩, ⟨6, .directive .close⟩] := by
    decide +kernel
  have found : (Text.lines commentedText)[5]? = some "#endif".toList := by rw [cut]; rfl
  have closed : LeavesNoneOpen commentedText 6 := by
    intro earlier other positive inFront here notCode
    rw [cut] at here
    rw [met] at notCode
    obtain rfl | rfl | rfl | rfl | rfl : earlier = 1 ∨ earlier = 2 ∨ earlier = 3 ∨ earlier = 4 ∨
      earlier = 5 := by omega
    all_goals cases here
    · exact absurd List.mem_cons_self notCode
    · exact absurd (List.mem_cons_of_mem _ List.mem_cons_self) notCode
    · exact absurd (List.mem_cons_of_mem _ (List.mem_cons_of_mem _ List.mem_cons_self)) notCode
    · decide +kernel
    · decide +kernel
  have handled : IsHandled commentedText 6 := ⟨.close, by rw [met]; decide +kernel⟩
  obtain ⟨directive, sameComments⟩ :=
    isHandled_iff commentedText 6 "#endif".toList (by decide +kernel) (by decide) found
  have outside := mt (sameComments closed).mpr (directive.mp handled).2
  exact ⟨by decide +kernel, found, closed, handled, outside⟩

/-- A comment that is opened on a directive line ends with it, though the next line begins
    inside it. -/
theorem isHandled_inside_block :
    ¬ ∀ text number line, '\\' ∉ text → 1 ≤ number → (Text.lines text)[number - 1]? = some line →
      (IsHandled text number ↔
        Directive.isDirectiveLine line = true ∧ ¬ BeginsInBlock (Text.lines text) number) := by
  intro claim
  have handled : IsHandled "#define A 1 /* note\n#define B 2\n*/".toList 2 :=
    ⟨.define "B 2".toList, by decide +kernel⟩
  have inBlock : BeginsInBlock (Text.lines "#define A 1 /* note\n#define B 2\n*/".toList) 2 := by
    unfold BeginsInBlock
    decide +kernel
  have outside := claim "#define A 1 /* note\n#define B 2\n*/".toList 2 "#define B 2".toList
    (by decide +kernel) (by decide) (by decide +kernel)
  exact (outside.mp handled).2 inBlock

end Multipass.Preprocess
