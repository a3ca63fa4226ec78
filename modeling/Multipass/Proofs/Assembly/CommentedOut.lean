import Multipass.Proofs.Assembly.Embedding
import Multipass.Proofs.Preprocess.CodeLine
import Multipass.Proofs.Preprocess.Renumbered

/-!
# Code with a comment put into it

A block comment on lines of its own, between two lines of a pass, is kept as it is or left out as
a whole, and the other lines of the expanded code are the same with it and without it. The
precision statements of the head need not be: the lines that state them are told one by one, by
their spelling, so a statement in the comment counts like one in the code.
-/

namespace Multipass

namespace Comment

/-- The lines that open and close a comment have no code on them. -/
theorem segments_markers :
    segments false "/*".toList = ([.code [], .comment "/*".toList, .comment []], true) ∧
      segments true "*/".toList = ([.comment "*/".toList, .code []], false) := by
  decide +kernel

theorem segments_within {line : List Char} (stays : ¬ "*/".toList <:+: line) :
    segments true line = ([.comment line], true) := by
  have none : splitAtClosing? line = none := by
    refine Option.eq_none_iff_forall_ne_some.mpr fun (front, rest) found => stays ?_
    exact ⟨front, rest, (Text.eq_append_of_breakAt? found).symm⟩
  rw [segments, if_pos rfl]
  split
  · rfl
  · rename_i found
    rw [none] at found
    cases found

end Comment

namespace Preprocess

/-- The lines of a block comment that shares no line with code. -/
def blockComment (body : List (List Char)) : List (List Char) :=
  "/*".toList :: body ++ ["*/".toList]

/-- Lines that can stand inside a block comment. -/
def IsCommentBody (body : List (List Char)) : Prop :=
  ∀ line ∈ body, '\n' ∉ line ∧ ¬ "*/".toList <:+: line

instance : DecidablePred IsCommentBody := fun body =>
  inferInstanceAs (Decidable (∀ line ∈ body, '\n' ∉ line ∧ ¬ "*/".toList <:+: line))

theorem blockComment_oneLine {body : List (List Char)} (isBody : IsCommentBody body) :
    ∀ line ∈ blockComment body, '\n' ∉ line := by
  intro line member
  rcases List.mem_cons.mp member with rfl | later
  · decide
  · rcases List.mem_append.mp later with inBody | last
    · exact (isBody line inBody).1
    · rw [List.mem_singleton.mp last]
      decide

section Block

variable {state : State} {line : List Char} {body : List (List Char)}

/-- A line on which no code stands stays as it is. -/
theorem codeLine_of_segments {segments : List Comment.Segment} {inside : Bool}
    (read : Comment.segments state.insideComment line = (segments, inside))
    (noCode : ∀ text, .code text ∈ segments → text = []) (number : Nat) :
    state.codeLine number line = (line, { state with insideComment := inside }) := by
  have ignores : IgnoresCode state.table state.insideComment line := by
    intro text member
    rw [read] at member
    rw [noCode text member]
    intro name named
    rw [Text.names_nil] at named
    exact absurd named List.not_mem_nil
  rw [state.codeLine_of_ignoresCode number ignores, Comment.insideAfter_eq, read]

/-- From inside a comment a run keeps the lines up to the one that closes it. -/
theorem run_commentBody (isBody : IsCommentBody body) (active : state.active = true)
    (inside : state.insideComment = true) (number : Nat) :
    run state number (body ++ ["*/".toList]) =
      (keepFrom number (body ++ ["*/".toList]), { state with insideComment := false }) := by
  have plain : ∀ line, ¬ (!state.insideComment && Directive.isDirectiveLine line) = true := by
    intro line
    rw [inside]
    exact Bool.false_ne_true
  induction body generalizing number with
  | nil =>
    have closes : Comment.segments state.insideComment "*/".toList =
        ([.comment "*/".toList, .code []], false) := by
      rw [inside, Comment.segments_markers.2]
    rw [List.nil_append, run_code (plain _) active, codeLine_of_segments closes (by simp), run]
    rfl
  | cons line rest ih =>
    have here := isBody line List.mem_cons_self
    have later := ih (fun other member => isBody other (List.mem_cons_of_mem _ member)) (number + 1)
    have stays : Comment.segments state.insideComment line = ([.comment line], true) := by
      rw [inside, Comment.segments_within here.2]
    rw [List.cons_append, run_code (plain _) active, codeLine_of_segments stays (by simp), ← inside,
      later]
    rfl

/-- Where the text is kept, so is a comment. -/
theorem run_blockComment (isBody : IsCommentBody body) (active : state.active = true)
    (outside : state.insideComment = false) (number : Nat) :
    run state number (blockComment body) = (keepFrom number (blockComment body), state) := by
  have opens : Comment.segments state.insideComment "/*".toList =
      ([.code [], .comment "/*".toList, .comment []], true) := by
    rw [outside, Comment.segments_markers.1]
  have plain : ¬ (!state.insideComment && Directive.isDirectiveLine "/*".toList) = true := by
    have notMarked : Directive.isDirectiveLine "/*".toList = false := by decide
    rw [notMarked, Bool.and_false]
    exact Bool.false_ne_true
  have within : run { state with insideComment := true } (number + 1) (body ++ ["*/".toList]) = _ :=
    @run_commentBody { state with insideComment := true } body isBody active rfl (number + 1)
  rw [blockComment, List.cons_append, run_code plain active, codeLine_of_segments opens (by simp),
    within, ← outside]
  rfl

/-- Where the text is left out, a comment without directives is left out as a whole. -/
theorem run_skippedLines {lines : List (List Char)} (inactive : ¬ state.active = true)
    (plain : ∀ line ∈ lines, Directive.isDirectiveLine line = false) (number : Nat) :
    run state number lines = ([], state) := by
  induction lines generalizing number with
  | nil => rw [run]
  | cons line rest ih =>
    have here := plain line List.mem_cons_self
    rw [run_skipped (by rw [here, Bool.and_false]; exact Bool.false_ne_true) inactive]
    exact ih (fun other member => plain other (List.mem_cons_of_mem _ member)) (number + 1)

end Block

/-- Is the place behind these lines outside comments, and does no directive go on there? -/
structure IsPlace (front : List (List Char)) : Prop where
  closed : endsOpen .initial 1 front = false
  outside : (run .initial 1 front).2.insideComment = false

/-- Behind a line that does not end in a backslash no directive goes on. -/
theorem closed_of_last {front : List (List Char)}
    (last : ∀ line ∈ front.getLast?, (Text.trimEnd line).getLast? ≠ some '\\') :
    endsOpen .initial 1 front = false := by
  refine Bool.eq_false_iff.mpr fun opens => ?_
  obtain ⟨line, isLast, ends⟩ := last_of_endsOpen opens
  exact last line isLast ends

/-- Is a comment followed as one at this place? In text that is left out none is, so there it must
    not have a line like a directive. -/
def IsFollowed (front body : List (List Char)) : Prop :=
  (run .initial 1 front).2.active = true ∨ ∀ line ∈ body, Directive.isDirectiveLine line = false

/-- The lines that are kept of these lines. -/
def keptTexts (lines : List (List Char)) : List (List Char) :=
  (run .initial 1 lines).1.map (·.text)

/-- The lines of a comment behind these lines that are kept. -/
def keptComment (front body : List (List Char)) : List (List Char) :=
  if (run .initial 1 front).2.active then blockComment body else []

section Inserted

variable {front body : List (List Char)} (place : IsPlace front) (isBody : IsCommentBody body)
  (followed : IsFollowed front body)

include place isBody followed

/-- Behind a comment a run goes on as before it. -/
theorem run_blockComment_inserted (number : Nat) :
    ∃ kept, run (run .initial 1 front).2 number (blockComment body) =
        (kept, (run .initial 1 front).2) ∧ kept.map (·.text) = keptComment front body := by
  unfold keptComment
  by_cases active : (run .initial 1 front).2.active = true
  · refine ⟨_, run_blockComment isBody active place.outside number, ?_⟩
    rw [map_text_keepFrom, if_pos active]
  · have plain : ∀ line ∈ blockComment body, Directive.isDirectiveLine line = false := by
      intro line member
      rcases List.mem_cons.mp member with rfl | later
      · decide
      · rcases List.mem_append.mp later with inBody | last
        · exact (followed.resolve_left active) line inBody
        · rw [List.mem_singleton.mp last]
          decide
    refine ⟨_, run_skippedLines active plain number, ?_⟩
    rw [if_neg active]
    rfl

/-- With the comment, the same lines are kept around it. -/
theorem run_inserted (back : List (List Char)) :
    ∃ later, keptTexts (front ++ back) = keptTexts front ++ later ∧
      keptTexts (front ++ (blockComment body ++ back)) =
        keptTexts front ++ (keptComment front body ++ later) ∧
      (run .initial 1 (front ++ back)).2.withoutLines =
        (run .initial 1 (front ++ (blockComment body ++ back))).2.withoutLines := by
  obtain ⟨kept, ran, keeps⟩ := run_blockComment_inserted place isBody followed (1 + front.length)
  have ended : endsOpen (run .initial 1 front).2 (1 + front.length) (blockComment body) = false := by
    refine Bool.eq_false_iff.mpr fun opens => ?_
    obtain ⟨line, isLast, ends⟩ := last_of_endsOpen opens
    rw [blockComment, List.getLast?_concat, Option.some.injEq] at isLast
    subst isLast
    exact absurd ends (by decide)
  obtain ⟨texts, last⟩ := run_of_alike (run .initial 1 front).2 (1 + front.length) back
    (run .initial 1 front).2 (1 + front.length + (blockComment body).length) rfl
  have without := run_append_of_closed place.closed back
  have withComment := run_append_of_closed place.closed (blockComment body ++ back)
  rw [run_append_of_closed ended, ran] at withComment
  refine ⟨(run (run .initial 1 front).2 (1 + front.length) back).1.map (·.text), ?_, ?_, ?_⟩
  · rw [keptTexts, without, List.map_append]
    rfl
  · rw [keptTexts, withComment, List.map_append, List.map_append, keeps, texts]
    rfl
  · rw [without, withComment, last]

end Inserted

end Preprocess

namespace Scaffold

/-- The compiled text with these precision statements and these lines of code. -/
def sourceOf (precisions : List Precision) (code : List (List Char)) : List Char :=
  head precisions ++ Text.unlines code ++ tail

/-- The compiled text for lines that are preprocessed. -/
def compiled (lines : List (List Char)) : List Char :=
  sourceOf (headPrecisions (statedPrecisions lines)) (lines.map relocatedLine)

/-- The second compiled text has the precision statements and the code of the first, and more
lines in one place. -/
def AddsOnly (added : List (List Char)) (source edited : List Char) : Prop :=
  ∃ precisions front back, source = sourceOf precisions (front ++ back) ∧
    edited = sourceOf precisions (front ++ (added ++ back))

/-- Lines that state no precision leave the head as it is. -/
theorem statedPrecisions_insert {middle : List (List Char)}
    (none : ∀ line ∈ middle, ∀ precision : Precision, ¬ precision.IsStatedBy line)
    (front back : List (List Char)) :
    statedPrecisions (front ++ (middle ++ back)) = statedPrecisions (front ++ back) := by
  have nothing : statements middle = [] := by
    refine List.filterMap_eq_nil_iff.mpr fun line member => ?_
    refine Option.eq_none_iff_forall_ne_some.mpr fun precision stated => ?_
    exact none line member precision (precisionOfLine?_eq_some_iff.mp stated)
  rw [statements] at nothing
  rw [statedPrecisions_eq, statedPrecisions_eq, statements, statements, List.filterMap_append,
    List.filterMap_append, nothing, List.nil_append, List.filterMap_append]

theorem addsOnly_compiled {middle : List (List Char)}
    (none : ∀ line ∈ middle, ∀ precision : Precision, ¬ precision.IsStatedBy line)
    (front back : List (List Char)) :
    AddsOnly (middle.map relocatedLine) (compiled (front ++ back))
      (compiled (front ++ (middle ++ back))) := by
  refine ⟨headPrecisions (statedPrecisions (front ++ back)), front.map relocatedLine,
    back.map relocatedLine, ?_, ?_⟩
  · rw [compiled, List.map_append]
  · rw [compiled, statedPrecisions_insert none, List.map_append, List.map_append]

/-- The head reaches at least up to the first brace that closes. -/
theorem brace_mem_head (precisions : List Precision) : '\x7d' ∈ head precisions := by
  have declared : "\x7d;" ∈ declarations := by simp [declarations]
  rw [head_eq_terminated, Text.terminated, List.mem_flatMap]
  exact ⟨"\x7d;".toList, List.mem_append_right _ (List.mem_map_of_mem declared), by decide⟩

/-- Texts that differ in front of the first brace that closes have different heads. -/
theorem not_addsOnly_of_early {added : List (List Char)} {source edited : List Char} {index : Nat}
    (early : '\x7d' ∉ source.take index) (different : source[index]? ≠ edited[index]?) :
    ¬ AddsOnly added source edited := by
  rintro ⟨precisions, front, back, rfl, rfl⟩
  simp only [sourceOf, List.append_assoc] at early different
  by_cases long : index < (head precisions).length
  · refine different ?_
    rw [List.getElem?_append_left long, List.getElem?_append_left long]
  · rw [List.take_append] at early
    refine early (List.mem_append_left _ ?_)
    rw [List.take_of_length_le (Nat.le_of_not_lt long)]
    exact brace_mem_head precisions

end Scaffold

namespace Assembly

open Preprocess Scaffold

/-- The code of a pass with a block comment between two of its lines. -/
def withComment (before : String) (body : List (List Char)) (after : String) : String :=
  before ++ "\n" ++ String.ofList (Text.unlines (blockComment body)) ++ "\n" ++ after

/-- Lines behind the beginning of a pass are lines behind its beginning in the combined text. -/
theorem lines_combine_break (common before after : List Char) :
    Text.lines (combine common (before ++ '\n' :: after)).text =
      Text.lines (combine common before).text ++ Text.lines after := by
  by_cases blank : Text.isAllBlank (dropContinuation common) = true
  · rw [combine_of_blank blank, combine_of_blank blank, Text.lines_append]
  · rw [lines_combined (Bool.not_eq_true _ ▸ blank), lines_combined (Bool.not_eq_true _ ▸ blank),
      Text.lines_append, List.append_assoc, List.cons_append]

section Assembled

variable {common before after : String} {body : List (List Char)} {pass : PassName}
  {assembled : AssembledPass}

/-- The compiled text is that for the lines that are kept. -/
theorem finalSource_eq_compiled {code : String}
    (assembles : assemble common code pass = .ok assembled) :
    assembled.finalSource.toList =
      compiled (keptTexts (Text.lines (combine common.toList code.toList).text)) := by
  have whole := (compiled_parts assembles).2
  rw [(isAssembled assembles).expandedCode] at whole
  rw [whole]
  show compiled (Text.lines (outcomeOf (combine common.toList code.toList).text).codeText) = _
  by_cases nothing : (outcomeOf (combine common.toList code.toList).text).kept = []
  · have kept : keptTexts (Text.lines (combine common.toList code.toList).text) = [] :=
      List.map_eq_nil_iff.mpr nothing
    rw [kept, Outcome.codeText, nothing]
    rfl
  · rw [lines_codeText nothing]
    rfl

/-- A pass with a comment between two of its lines is assembled from the same other lines. -/
theorem exists_edited (place : IsPlace (Text.lines (combine common.toList before.toList).text))
    (isBody : IsCommentBody body)
    (followed : IsFollowed (Text.lines (combine common.toList before.toList).text) body)
    (assembles : assemble common (before ++ "\n" ++ after) pass = .ok assembled) :
    ∃ edited, assemble common (withComment before body after) pass = .ok edited ∧
      ∃ back,
        keptTexts (Text.lines (combine common.toList before.toList).text ++ Text.lines after.toList) =
          keptTexts (Text.lines (combine common.toList before.toList).text) ++ back ∧
        assembled.finalSource.toList =
          compiled (keptTexts (Text.lines (combine common.toList before.toList).text) ++ back) ∧
        edited.finalSource.toList =
          compiled (keptTexts (Text.lines (combine common.toList before.toList).text) ++
            (keptComment (Text.lines (combine common.toList before.toList).text) body ++ back)) := by
  have lines : Text.lines (combine common.toList (before ++ "\n" ++ after).toList).text =
      Text.lines (combine common.toList before.toList).text ++ Text.lines after.toList := by
    rw [← lines_combine_break]
    simp
  have linesEdited : Text.lines (combine common.toList (withComment before body after).toList).text =
      Text.lines (combine common.toList before.toList).text ++
        (blockComment body ++ Text.lines after.toList) := by
    have comment : Text.lines (Text.unlines (blockComment body)) = blockComment body :=
      Text.lines_unlines (blockComment_oneLine isBody) (List.cons_ne_nil _ _)
    rw [← comment, ← Text.lines_append, ← lines_combine_break, withComment]
    simp
  obtain ⟨back, without, withIt, alike⟩ := run_inserted place isBody followed
    (Text.lines after.toList)
  have sound := (errors_eq_nil_iff _).mp (isAssembled assembles).sound
  rw [lines] at sound
  obtain ⟨edited, assemblesEdited⟩ : ∃ edited,
      assemble common (withComment before body after) pass = .ok edited := by
    refine exists_assembled pass ((errors_eq_nil_iff _).mpr ?_)
    rw [linesEdited]
    exact State.sound_of_alike alike sound
  refine ⟨edited, assemblesEdited, back, without, ?_, ?_⟩
  · rw [finalSource_eq_compiled assembles, lines, without]
  · rw [finalSource_eq_compiled assemblesEdited, linesEdited, withIt]

/-- A comment that is put between two lines of a pass leaves all other lines of the compiled code
as they are, and so it does with the head, unless a line of the comment that is kept reads like a
precision statement: then the head is that for all lines, the comment's among them. -/
theorem assemble_withComment
    (place : IsPlace (Text.lines (combine common.toList before.toList).text))
    (isBody : IsCommentBody body)
    (followed : IsFollowed (Text.lines (combine common.toList before.toList).text) body)
    (assembles : assemble common (before ++ "\n" ++ after) pass = .ok assembled) :
    ∃ edited, assemble common (withComment before body after) pass = .ok edited ∧
      ∃ front inserted back,
        inserted = keptComment (Text.lines (combine common.toList before.toList).text) body ∧
        assembled.finalSource.toList = compiled (front ++ back) ∧
        edited.finalSource.toList = compiled (front ++ (inserted ++ back)) ∧
        ((∀ line ∈ inserted, ∀ precision : Precision, ¬ precision.IsStatedBy line) →
          AddsOnly (inserted.map relocatedLine) assembled.finalSource.toList
            edited.finalSource.toList) := by
  obtain ⟨edited, assemblesEdited, back, -, source, sourceEdited⟩ :=
    exists_edited place isBody followed assembles
  refine ⟨edited, assemblesEdited, _, _, back, rfl, source, sourceEdited, fun none => ?_⟩
  rw [source, sourceEdited]
  exact addsOnly_compiled none _ back

end Assembled

section Stating

/-! A comment with a line that reads like a precision statement. -/

private theorem stating :
    Text.lines (combine "".toList "float a;".toList).text = ["float a;".toList] ∧
      Text.lines (combine "".toList ("float a;" ++ "\n" ++ "float b;").toList).text =
        ["float a;".toList, "float b;".toList] ∧
      Text.lines "float b;".toList = ["float b;".toList] ∧
      (∀ line ∈ ["float a;".toList, "float b;".toList],
        Directive.isDirectiveLine line = false ∧ Comment.insideAfter false line = false) ∧
      IsCommentBody ["precision lowp float;".toList] := by
  decide +kernel

private theorem run_stating :
    run .initial 1 ["float a;".toList] = (keepFrom 1 ["float a;".toList], .initial) ∧
      run .initial 1 ["float a;".toList, "float b;".toList] =
        (keepFrom 1 ["float a;".toList, "float b;".toList], .initial) :=
  ⟨run_of_isPlain (fun line member => stating.2.2.2.1 line
    (List.mem_cons.mpr (.inl (List.mem_singleton.mp member)))) 1, run_of_isPlain stating.2.2.2.1 1⟩

private theorem exists_plain :
    ∃ assembled, assemble "" ("float a;" ++ "\n" ++ "float b;") .image = .ok assembled := by
  exact exists_assembled .image (outcome_of_isPlain stating.2.1 stating.2.2.2.1).1

private theorem place_stating :
    IsPlace (Text.lines (combine "".toList "float a;".toList).text) := by
  rw [stating.1]
  refine ⟨closed_of_last (by decide), ?_⟩
  rw [run_stating.1]
  rfl

private theorem active_stating :
    (run .initial 1 (Text.lines (combine "".toList "float a;".toList).text)).2.active = true := by
  rw [stating.1, run_stating.1]
  rfl

theorem assemble_withComment_stating :
    ∃ assembled, assemble "" ("float a;" ++ "\n" ++ "float b;") .image = .ok assembled ∧
      IsPlace (Text.lines (combine "".toList "float a;".toList).text) ∧
      IsCommentBody ["precision lowp float;".toList] ∧
      IsFollowed (Text.lines (combine "".toList "float a;".toList).text)
        ["precision lowp float;".toList] ∧
      ∃ edited, assemble "" (withComment "float a;" ["precision lowp float;".toList] "float b;")
          .image = .ok edited ∧
        ∃ front inserted back,
          inserted = keptComment (Text.lines (combine "".toList "float a;".toList).text)
            ["precision lowp float;".toList] ∧
          assembled.finalSource.toList = compiled (front ++ back) ∧
          edited.finalSource.toList = compiled (front ++ (inserted ++ back)) ∧
          ((∀ line ∈ inserted, ∀ precision : Precision, ¬ precision.IsStatedBy line) →
            AddsOnly (inserted.map relocatedLine) assembled.finalSource.toList
              edited.finalSource.toList) := by
  obtain ⟨assembled, assembles⟩ := exists_plain
  exact ⟨assembled, assembles, place_stating, stating.2.2.2.2, .inl active_stating,
    assemble_withComment place_stating stating.2.2.2.2 (.inl active_stating) assembles⟩

/-- A statement in a comment that is put into the code changes the head. -/
theorem not_addsOnly_stating :
    IsPlace (Text.lines (combine "".toList "float a;".toList).text) ∧
    IsCommentBody ["precision lowp float;".toList] ∧
    IsFollowed (Text.lines (combine "".toList "float a;".toList).text)
      ["precision lowp float;".toList] ∧
    ∃ assembled edited,
      assemble "" ("float a;" ++ "\n" ++ "float b;") .image = .ok assembled ∧
      assemble "" (withComment "float a;" ["precision lowp float;".toList] "float b;") .image =
        .ok edited ∧
      ¬ ∃ added, AddsOnly added assembled.finalSource.toList edited.finalSource.toList := by
  obtain ⟨assembled, assembles⟩ := exists_plain
  obtain ⟨edited, assemblesEdited, back, kept, source, sourceEdited⟩ :=
    exists_edited place_stating stating.2.2.2.2 (.inl active_stating) assembles
  refine ⟨place_stating, stating.2.2.2.2, .inl active_stating, assembled, edited, assembles,
    assemblesEdited, ?_⟩
  rintro ⟨added, addsOnly⟩
  have first : keptTexts (Text.lines (combine "".toList "float a;".toList).text) =
      ["float a;".toList] := by
    rw [keptTexts, stating.1, run_stating.1, map_text_keepFrom]
  have both : keptTexts (Text.lines (combine "".toList "float a;".toList).text ++
      Text.lines "float b;".toList) = ["float a;".toList, "float b;".toList] := by
    rw [stating.1, stating.2.2.1, keptTexts, List.singleton_append, run_stating.2,
      map_text_keepFrom]
  rw [first, both, List.singleton_append, List.cons.injEq] at kept
  rw [source, sourceEdited, first, ← kept.2, keptComment, if_pos active_stating] at addsOnly
  have early : '\x7d' ∉ (compiled ["float a;".toList, "float b;".toList]).take 23 := by
    decide
  have stated : (compiled ["float a;".toList, "float b;".toList])[23]? = some 'h' ∧
      (compiled ("float a;".toList :: (blockComment ["precision lowp float;".toList] ++
        ["float b;".toList])))[23]? = some 'l' := by
    decide
  refine not_addsOnly_of_early early ?_ addsOnly
  rw [List.singleton_append, stated.1, stated.2]
  decide

end Stating

end Assembly

end Multipass
