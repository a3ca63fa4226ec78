import Mathlib.Data.List.Induction
import Multipass.Proofs.Attribution
import Multipass.Proofs.Log.Entry
import Multipass.Proofs.Text.Lines

/-!
# A log is read line by line

Each line of a log contributes its diagnostics behind those of the lines in front of it: one if
it names a line of the compiled text, one if it is the first to speak of a failure in its words,
and none otherwise. So a log that goes on only adds to what it has said. A log is read to its
end unless one of its lines names a number that overflows.
-/

namespace Multipass

namespace Log

open Text

variable {pass : PassName} {attribution : Attribution}

/-! ## Sentences -/

/-- The sentence that a text is turned into. -/
def messageOf (text : List Char) : String :=
  normalizeMessage (String.ofList text)

theorem messageOf_eq (text : List Char) : messageOf text = String.ofList (sentenceFor text) := by
  rw [messageOf, normalizeMessage, String.toList_ofList]

theorem sentenceFor_congr {text text' : List Char} (same : trim text = trim text') :
    sentenceFor text = sentenceFor text' := by
  rw [sentenceFor, sentenceFor, same]

theorem sentenceFor_trimStart (text : List Char) : sentenceFor (trimStart text) = sentenceFor text := by
  have once : trimStart (trimStart text) = trimStart text :=
    dropWhile_of_boundary (boundary_dropWhile isBlank text)
  apply sentenceFor_congr
  rw [trim, trim, once]

/-- A carriage return at the end of a text does not show in its sentence. -/
theorem sentenceFor_concat (text : List Char) :
    sentenceFor (text ++ ['\r']) = sentenceFor text :=
  sentenceFor_congr (trim_concat_of_isBlank (by decide) text)

/-! ## Lines that overflow -/

/-- The line names a line of the compiled text by this number. -/
def Names (line : List Char) (number : Nat) : Prop :=
  ∃ severity digits text, Spells line severity digits text ∧ IsLineNumber digits number

/-- The line names a number for which there is no line of a pass. -/
def Overflows (attribution : Attribution) (line : List Char) : Prop :=
  ∃ number, Names line number ∧ attribution.finalLine number = .error .subtraction

theorem Names.ofLine? {line : List Char} {number : Nat} (names : Names line number) :
    ∃ entry, Entry.ofLine? line = some entry ∧ entry.line = number := by
  obtain ⟨severity, digits, text, spells, isNumber⟩ := names
  have ⟨_, _, _, _, nonempty, _, _⟩ := spells
  exact ⟨⟨severity, lineNumber digits, trimStart text⟩,
    ofLine?_eq_some_iff.mpr ⟨digits, text, spells, rfl, rfl⟩,
    (isLineNumber_lineNumber nonempty).trans isNumber.symm⟩

/-- Numbers that fit into a signed word do not overflow. -/
theorem not_overflows_of_lt {line : List Char} (height : attribution.startLine < 2 ^ 63)
    (small : ∀ number, Names line number → number < 2 ^ 63) : ¬ Overflows attribution line := by
  rintro ⟨number, names, overflows⟩
  have great := Attribution.le_of_finalLine_error height overflows
  exact Nat.not_le_of_lt (small number names) great

theorem addLine_of_overflows {line : List Char} (overflows : Overflows attribution line)
    (pass : PassName) (found : List Diagnostic) :
    addLine pass attribution found line = .error .subtraction := by
  obtain ⟨number, names, fails⟩ := overflows
  obtain ⟨entry, read, rfl⟩ := names.ofLine?
  have visible : ¬ isAllBlank line = true := by
    intro blank
    obtain ⟨severity, digits, text, spells, -⟩ := names
    exact not_spells_of_isAllBlank blank _ _ _ spells
  rw [addLine, if_neg visible, read]
  simp only [fails]
  rfl

/-- Every number that a line of the log names is below `2 ^ 63`. -/
def IsSmall (log : String) : Prop :=
  ∀ line ∈ logLines log.toList, ∀ number, Names line number → number < 2 ^ 63

/-- No line of the log overflows. -/
def IsSound (attribution : Attribution) (log : String) : Prop :=
  ∀ line ∈ logLines log.toList, ¬ Overflows attribution line

theorem IsSmall.isSound {log : String} (isSmall : IsSmall log)
    (height : attribution.startLine < 2 ^ 63) : IsSound attribution log :=
  fun line member => not_overflows_of_lt height (isSmall line member)

/-! ## What a line contributes -/

/-- The diagnostics that a line of a log contributes, behind the lines `earlier`. -/
inductive Contributes (pass : PassName) (attribution : Attribution) (earlier : List (List Char)) :
    List Char → List Diagnostic → Prop
  | entry {line digits text : List Char} {severity : Severity} {number sourceLine : Nat}
      {owner : PassName} :
      Spells line severity digits text → IsLineNumber digits number →
      attribution.finalLine number = .ok (owner, sourceLine) → 1 ≤ sourceLine →
      Contributes pass attribution earlier line
        [⟨sourceLine, owner, severity, messageOf text, number⟩]
  | failure {line : List Char} :
      IsFailure line → (∀ other ∈ earlier, IsFailure other → messageOf other ≠ messageOf line) →
      Contributes pass attribution earlier line [.lineless pass (messageOf line)]
  | repeated {line other : List Char} :
      IsFailure line → other ∈ earlier → IsFailure other → messageOf other = messageOf line →
      Contributes pass attribution earlier line []
  | silent {line : List Char} :
      (∀ severity digits text, ¬ Spells line severity digits text) → ¬ IsFailure line →
      Contributes pass attribution earlier line []

theorem exists_contributes {line : List Char} (sound : ¬ Overflows attribution line)
    (pass : PassName) (earlier : List (List Char)) :
    ∃ part, Contributes pass attribution earlier line part := by
  by_cases spelled : ∃ severity digits text, Spells line severity digits text
  · obtain ⟨severity, digits, text, spells⟩ := spelled
    have ⟨_, _, _, _, nonempty, _, _⟩ := spells
    have isNumber := isLineNumber_lineNumber nonempty
    cases reported : attribution.finalLine (lineNumber digits) with
    | error overflow =>
      rw [Attribution.finalLine_error reported] at reported
      exact absurd ⟨_, ⟨severity, digits, text, spells, isNumber⟩, reported⟩ sound
    | ok place =>
      exact ⟨_, .entry spells isNumber reported (Attribution.one_le_of_finalLine reported)⟩
  · simp only [not_exists] at spelled
    by_cases failure : IsFailure line
    · by_cases seen : ∃ other ∈ earlier, IsFailure other ∧ messageOf other = messageOf line
      · obtain ⟨other, member, failure', same⟩ := seen
        exact ⟨[], .repeated failure member failure' same⟩
      · refine ⟨_, .failure failure fun other member failure' same => ?_⟩
        exact seen ⟨other, member, failure', same⟩
    · exact ⟨[], .silent spelled failure⟩

/-- The errors without a line are those of the failures so far. -/
def Records (pass : PassName) (earlier : List (List Char)) (found : List Diagnostic) : Prop :=
  ∀ message, (∃ diagnostic ∈ found, diagnostic.sourceLine = 0 ∧ diagnostic.pass = pass ∧
      diagnostic.message = message) ↔
    ∃ line ∈ earlier, IsFailure line ∧ messageOf line = message

theorem records_nil : Records pass [] [] := by
  intro message
  simp

section Step

variable {earlier : List (List Char)} {found part : List Diagnostic} {line : List Char}

theorem Records.concat (records : Records pass earlier found)
    (contributes : Contributes pass attribution earlier line part) :
    Records pass (earlier ++ [line]) (found ++ part) := by
  intro message
  simp only [List.mem_append, List.mem_singleton, or_and_right, exists_or, records message,
    exists_eq_left]
  cases contributes with
  | entry spells _ _ positive =>
    have named : ¬ IsFailure line := fun failure => failure.unnamed _ _ _ spells
    simp [named]
    omega
  | failure failure first =>
    simp [Diagnostic.lineless, failure]
  | repeated failure member failure' same =>
    constructor
    · rintro (before | ⟨diagnostic, absent, -⟩)
      · exact .inl before
      · cases absent
    · rintro (before | ⟨-, rfl⟩)
      · exact .inl before
      · exact .inl ⟨_, member, failure', same⟩
  | silent unnamed quiet =>
    simp [quiet]

theorem ofLine?_eq_none_iff :
    Entry.ofLine? line = none ↔ ∀ severity digits text, ¬ Spells line severity digits text := by
  constructor
  · intro none severity digits text spells
    have found : Entry.ofLine? line = some ⟨severity, lineNumber digits, trimStart text⟩ :=
      ofLine?_eq_some_iff.mpr ⟨digits, text, spells, rfl, rfl⟩
    rw [none] at found
    cases found
  · intro unnamed
    cases read : Entry.ofLine? line with
    | none => rfl
    | some entry =>
      obtain ⟨digits, text, spells, -⟩ := ofLine?_eq_some_iff.mp read
      exact absurd spells (unnamed _ _ _)

theorem seen_iff (records : Records pass earlier found) {message : String} :
    (found.any fun diagnostic => diagnostic.sourceLine == 0 && diagnostic.pass == pass &&
        diagnostic.message == message) = true ↔
      ∃ line ∈ earlier, IsFailure line ∧ messageOf line = message := by
  rw [← records message, List.any_eq_true]
  simp only [Bool.and_eq_true, beq_iff_eq, and_assoc]

/-- Reading a line puts its contribution behind what was found so far. -/
theorem addLine_eq (records : Records pass earlier found)
    (contributes : Contributes pass attribution earlier line part) :
    addLine pass attribution found line = .ok (found ++ part) := by
  unfold addLine
  by_cases blank : isAllBlank line = true
  · rw [if_pos blank]
    cases contributes with
    | entry spells => exact absurd spells (not_spells_of_isAllBlank blank _ _ _)
    | failure failure => exact absurd failure (not_isFailure_of_isAllBlank blank)
    | repeated => exact congrArg Except.ok (List.append_nil found).symm
    | silent => exact congrArg Except.ok (List.append_nil found).symm
  · rw [if_neg blank]
    cases contributes with
    | entry spells isNumber final =>
      rename_i digits text severity number sourceLine owner positive
      have ⟨_, _, _, _, nonempty, _, _⟩ := spells
      have read : Entry.ofLine? line = some ⟨severity, lineNumber digits, trimStart text⟩ :=
        ofLine?_eq_some_iff.mpr ⟨digits, text, spells, rfl, rfl⟩
      have same : lineNumber digits = number :=
        (isLineNumber_lineNumber nonempty).trans isNumber.symm
      rw [read]
      simp only [same, final, sentenceFor_trimStart, messageOf_eq]
      rfl
    | failure failure first =>
      have new : ¬ ∃ other ∈ earlier, IsFailure other ∧ messageOf other = messageOf line := by
        rintro ⟨other, member, failure', same⟩
        exact first other member failure' same
      rw [ofLine?_eq_none_iff.mpr failure.unnamed]
      simp only
      rw [if_pos (speaksOfFailure_iff.mpr failure.mentions), ← messageOf_eq,
        if_neg ((seen_iff records).not.mpr new)]
      rfl
    | repeated failure member failure' same =>
      rw [ofLine?_eq_none_iff.mpr failure.unnamed]
      simp only
      rw [if_pos (speaksOfFailure_iff.mpr failure.mentions), ← messageOf_eq,
        if_pos ((seen_iff records).mpr ⟨_, member, failure', same⟩), List.append_nil]
      rfl
    | silent unnamed quiet =>
      have silent : ¬ speaksOfFailure line = true := fun speaks =>
        quiet ⟨unnamed, speaksOfFailure_iff.mp speaks⟩
      rw [ofLine?_eq_none_iff.mpr unnamed]
      simp only
      rw [if_neg silent, List.append_nil]
      rfl

end Step

/-! ## What a log says -/

/-- What the lines of a log contribute, line by line. -/
structure IsStream (pass : PassName) (attribution : Attribution) (lines : List (List Char))
    (parts : List (List Diagnostic)) : Prop where
  length : parts.length = lines.length
  contributes : ∀ (index : Nat) (line : List Char) (part : List Diagnostic),
    lines[index]? = some line → parts[index]? = some part →
      Contributes pass attribution (lines.take index) line part

theorem IsStream.concat {lines : List (List Char)} {parts : List (List Diagnostic)}
    (isStream : IsStream pass attribution lines parts) {line : List Char} {part : List Diagnostic}
    (contributes : Contributes pass attribution lines line part) :
    IsStream pass attribution (lines ++ [line]) (parts ++ [part]) := by
  refine ⟨by simp [isStream.length], ?_⟩
  intro index line' part' here part'Here
  rcases Nat.lt_trichotomy index lines.length with inside | atEnd | beyond
  · have insideParts : index < parts.length := isStream.length.symm ▸ inside
    rw [List.getElem?_append_left inside] at here
    rw [List.getElem?_append_left insideParts] at part'Here
    rw [List.take_append_of_le_length (Nat.le_of_lt inside)]
    exact isStream.contributes index line' part' here part'Here
  · subst atEnd
    rw [List.getElem?_concat_length, Option.some.injEq] at here
    rw [← isStream.length, List.getElem?_concat_length, Option.some.injEq] at part'Here
    rw [List.take_left, ← here, ← part'Here]
    exact contributes
  · rw [List.getElem?_eq_none (by simpa using Nat.succ_le_of_lt beyond)] at here
    cases here

theorem exists_parts (pass : PassName) {lines : List (List Char)}
    (sound : ∀ line ∈ lines, ¬ Overflows attribution line) :
    ∃ parts, IsStream pass attribution lines parts ∧
      Records pass lines parts.flatten ∧
      lines.foldlM (addLine pass attribution) [] = .ok parts.flatten := by
  -- From the end: what the last line contributes depends on the lines in front of it.
  induction lines using List.reverseRecOn with
  | nil =>
    refine ⟨[], ⟨rfl, ?_⟩, records_nil, rfl⟩
    intro index line part here
    cases here
  | append_singleton lines line ih =>
    rw [List.forall_mem_append, List.forall_mem_singleton] at sound
    obtain ⟨parts, isStream, records, whole⟩ := ih sound.1
    obtain ⟨part, contributes⟩ := exists_contributes sound.2 pass lines
    have flat : (parts ++ [part]).flatten = parts.flatten ++ part := by simp
    refine ⟨parts ++ [part], isStream.concat contributes, ?_, ?_⟩
    · rw [flat]
      exact records.concat contributes
    · rw [List.foldlM_append, whole, flat, ← addLine_eq records contributes]
      exact bind_pure (addLine pass attribution parts.flatten line)

/-- Whatever the lines so far are, the errors without a line can be those of their failures. -/
theorem exists_records (pass : PassName) (earlier : List (List Char)) :
    ∃ found, Records pass earlier found := by
  classical
  refine ⟨(earlier.filter fun line => IsFailure line).map (.lineless pass <| messageOf ·), ?_⟩
  intro message
  simp [Diagnostic.lineless, and_assoc]

/-- A line contributes one thing only. -/
theorem Contributes.unique {earlier : List (List Char)} {line : List Char}
    {part part' : List Diagnostic} (contributes : Contributes pass attribution earlier line part)
    (contributes' : Contributes pass attribution earlier line part') : part = part' := by
  obtain ⟨found, records⟩ := exists_records pass earlier
  have same : found ++ part = found ++ part' :=
    Except.ok.inj ((addLine_eq records contributes).symm.trans (addLine_eq records contributes'))
  exact List.append_cancel_left same

theorem IsStream.unique {lines : List (List Char)} {parts parts' : List (List Diagnostic)}
    (isStream : IsStream pass attribution lines parts)
    (isStream' : IsStream pass attribution lines parts') : parts = parts' := by
  apply List.ext_getElem (isStream.length.trans isStream'.length.symm)
  intro index inside inside'
  have inLines : index < lines.length := isStream.length ▸ inside
  have here := List.getElem?_eq_getElem inLines
  exact (isStream.contributes index _ _ here (List.getElem?_eq_getElem inside)).unique
    (isStream'.contributes index _ _ here (List.getElem?_eq_getElem inside'))

/-! ## A log that goes on -/

section Continued

variable {earlier : List (List Char)} {found part : List Diagnostic} {line : List Char}

/-- Reading lines leaves what was found so far. -/
theorem Records.exists_foldlM (records : Records pass earlier found) {lines : List (List Char)}
    (sound : ∀ line ∈ lines, ¬ Overflows attribution line) :
    ∃ later, lines.foldlM (addLine pass attribution) found = .ok (found ++ later) := by
  induction lines generalizing earlier found with
  | nil => exact ⟨[], congrArg Except.ok (List.append_nil found).symm⟩
  | cons line rest ih =>
    rw [List.forall_mem_cons] at sound
    obtain ⟨part, contributes⟩ := exists_contributes sound.1 pass earlier
    obtain ⟨later, whole⟩ := ih (records.concat contributes) sound.2
    refine ⟨part ++ later, ?_⟩
    rw [List.foldlM_cons, addLine_eq records contributes, ← List.append_assoc, ← whole]
    rfl

theorem isFailure_concat_iff : IsFailure (line ++ ['\r']) ↔ IsFailure line := by
  have speaks := speaksOfFailure_concat line
  rw [Bool.eq_iff_iff, speaksOfFailure_iff, speaksOfFailure_iff] at speaks
  constructor
  · rintro ⟨unnamed, mentions⟩
    refine ⟨fun severity digits text spells => ?_, speaks.mp mentions⟩
    exact unnamed _ _ _ ((spells_concat_iff (by decide)).mpr ⟨text, rfl, spells⟩)
  · rintro ⟨unnamed, mentions⟩
    refine ⟨fun severity digits text spells => ?_, speaks.mpr mentions⟩
    obtain ⟨front, -, spells'⟩ := (spells_concat_iff (by decide)).mp spells
    exact unnamed _ _ _ spells'

theorem messageOf_concat (text : List Char) : messageOf (text ++ ['\r']) = messageOf text := by
  rw [messageOf_eq, messageOf_eq, sentenceFor_concat]

/-- A carriage return at the end of a line changes nothing. -/
theorem Contributes.concat (contributes : Contributes pass attribution earlier line part) :
    Contributes pass attribution earlier (line ++ ['\r']) part := by
  cases contributes with
  | entry spells isNumber final positive =>
    rw [← messageOf_concat]
    exact .entry ((spells_concat_iff (by decide)).mpr ⟨_, rfl, spells⟩) isNumber final positive
  | failure failure first =>
    rw [← messageOf_concat]
    refine .failure (isFailure_concat_iff.mpr failure) ?_
    rwa [messageOf_concat]
  | repeated failure member failure' same =>
    refine .repeated (isFailure_concat_iff.mpr failure) member failure' ?_
    rwa [messageOf_concat]
  | silent unnamed quiet =>
    refine .silent (fun severity digits text spells => ?_) (isFailure_concat_iff.not.mpr quiet)
    obtain ⟨front, -, spells'⟩ := (spells_concat_iff (by decide)).mp spells
    exact unnamed _ _ _ spells'

theorem overflows_concat_iff :
    Overflows attribution (line ++ ['\r']) ↔ Overflows attribution line := by
  refine exists_congr fun number => and_congr_left fun _ => ?_
  constructor
  · rintro ⟨severity, digits, text, spells, isNumber⟩
    obtain ⟨front, -, spells'⟩ := (spells_concat_iff (by decide)).mp spells
    exact ⟨severity, digits, front, spells', isNumber⟩
  · rintro ⟨severity, digits, text, spells, isNumber⟩
    exact ⟨severity, digits, _, (spells_concat_iff (by decide)).mpr ⟨text, rfl, spells⟩, isNumber⟩

theorem addLine_concat (records : Records pass earlier found) (attribution : Attribution)
    (line : List Char) :
    addLine pass attribution found (line ++ ['\r']) = addLine pass attribution found line := by
  by_cases overflows : Overflows attribution line
  · rw [addLine_of_overflows overflows, addLine_of_overflows (overflows_concat_iff.mpr overflows)]
  · obtain ⟨part, contributes⟩ := exists_contributes overflows pass earlier
    rw [addLine_eq records contributes, addLine_eq records contributes.concat]

theorem addLine_dropCarriageReturn (records : Records pass earlier found)
    (attribution : Attribution) (line : List Char) :
    addLine pass attribution found (dropCarriageReturn line) =
      addLine pass attribution found line := by
  unfold dropCarriageReturn
  split
  · rename_i ended
    obtain ⟨front, rfl⟩ := List.getLast?_eq_some_iff.mp ended
    rw [List.dropLast_concat, addLine_concat records]
  · rfl

/-- A line that overflows ends the reading. -/
theorem Records.foldlM_of_overflows (records : Records pass earlier found)
    {lines : List (List Char)} (member : line ∈ lines) (overflows : Overflows attribution line) :
    lines.foldlM (addLine pass attribution) found = .error .subtraction := by
  induction lines generalizing earlier found with
  | nil => cases member
  | cons first rest ih =>
    rw [List.foldlM_cons]
    by_cases here : Overflows attribution first
    · rw [addLine_of_overflows here]
      rfl
    · obtain ⟨part, contributes⟩ := exists_contributes here pass earlier
      rw [addLine_eq records contributes]
      refine ih (records.concat contributes) ((List.mem_cons.mp member).resolve_left ?_)
      rintro rfl
      exact here overflows

theorem records_of_foldlM {lines : List (List Char)}
    (reads : lines.foldlM (addLine pass attribution) [] = .ok found) :
    Records pass lines found := by
  have sound : ∀ line ∈ lines, ¬ Overflows attribution line := by
    intro line member overflows
    rw [records_nil.foldlM_of_overflows member overflows] at reads
    cases reads
  obtain ⟨parts, -, records, whole⟩ := exists_parts pass sound
  rw [whole] at reads
  cases reads
  exact records

theorem foldlM_map_dropCarriageReturn (records : Records pass earlier found)
    (attribution : Attribution) (lines : List (List Char)) :
    (lines.map dropCarriageReturn).foldlM (addLine pass attribution) found =
      lines.foldlM (addLine pass attribution) found := by
  induction lines generalizing earlier found with
  | nil => rfl
  | cons line rest ih =>
    rw [List.map_cons, List.foldlM_cons, addLine_dropCarriageReturn records]
    by_cases overflows : Overflows attribution line
    · rw [records.foldlM_of_overflows List.mem_cons_self overflows,
        addLine_of_overflows overflows]
      rfl
    · obtain ⟨part, contributes⟩ := exists_contributes overflows pass earlier
      rw [List.foldlM_cons, addLine_eq records contributes]
      exact ih (records.concat contributes)

/-- Lines of a log are read like those of a source. -/
theorem foldlM_endedLines (records : Records pass earlier found) (lines : List (List Char)) :
    (endedLines lines).foldlM (addLine pass attribution) found =
      lines.foldlM (addLine pass attribution) found := by
  rcases List.eq_nil_or_concat' lines with rfl | ⟨front, last, rfl⟩
  · rfl
  · rw [endedLines_concat, List.foldlM_append, List.foldlM_append,
      foldlM_map_dropCarriageReturn records]
    by_cases nothing : last.isEmpty = true
    · rw [if_pos nothing, List.isEmpty_iff.mp nothing]
      rfl
    · rw [if_neg nothing]

end Continued

end Log

section Log

open Log

variable (log : String) (pass : PassName) (attribution : Attribution)

theorem mapDiagnostics_eq_foldlM :
    mapDiagnostics log pass attribution =
      (Text.lines log.toList).foldlM (addLine pass attribution) [] :=
  foldlM_endedLines records_nil (Text.lines log.toList)

theorem mapDiagnostics_concat_lineFeed :
    mapDiagnostics (log ++ "\n") pass attribution = mapDiagnostics log pass attribution := by
  rw [mapDiagnostics_eq_foldlM, mapDiagnostics_eq_foldlM, String.toList_append]
  show List.foldlM _ _ (Text.lines (log.toList ++ '\n' :: [])) = _
  rw [Text.lines_append, List.foldlM_append]
  exact bind_pure _

theorem mapDiagnostics_concat_return :
    mapDiagnostics (log ++ "\r") pass attribution = mapDiagnostics log pass attribution := by
  have other : '\r' ≠ '\n' := by decide
  obtain ⟨front, last, before, after⟩ := Text.exists_lines_concat other log.toList
  rw [mapDiagnostics_eq_foldlM, mapDiagnostics_eq_foldlM, String.toList_append]
  show List.foldlM _ _ (Text.lines (log.toList ++ ['\r'])) = _
  rw [before, after, List.foldlM_append, List.foldlM_append]
  by_cases sound : ∀ line ∈ front, ¬ Overflows attribution line
  · obtain ⟨parts, -, records, whole⟩ := exists_parts pass sound
    rw [whole]
    exact congrArg (· >>= pure) (addLine_concat records attribution last)
  · push Not at sound
    obtain ⟨line, member, overflows⟩ := sound
    rw [records_nil.foldlM_of_overflows member overflows]
    rfl

variable {log pass attribution}

/-- What follows on a line feed only adds diagnostics. -/
theorem exists_mapDiagnostics_append {found : List Diagnostic}
    (reads : mapDiagnostics log pass attribution = .ok found) {more : String}
    (isSound : IsSound attribution more) :
    ∃ later, mapDiagnostics (log ++ "\n" ++ more) pass attribution = .ok (found ++ later) := by
  have split : (log ++ "\n" ++ more).toList = log.toList ++ '\n' :: more.toList := by simp
  rw [mapDiagnostics_eq_foldlM] at reads
  have records := records_of_foldlM reads
  obtain ⟨later, same⟩ := records.exists_foldlM isSound
  refine ⟨later, ?_⟩
  rw [mapDiagnostics_eq_foldlM, split, Text.lines_append, List.foldlM_append, reads, ← same]
  exact (foldlM_endedLines records (Text.lines more.toList)).symm

theorem mapDiagnostics_of_not_isSound (unsound : ¬ IsSound attribution log) :
    mapDiagnostics log pass attribution = .error .subtraction := by
  simp only [IsSound, not_forall, not_not] at unsound
  obtain ⟨line, member, overflows⟩ := unsound
  exact records_nil.foldlM_of_overflows member overflows

theorem exists_mapDiagnostics_eq_ok (isSound : IsSound attribution log) (pass : PassName) :
    ∃ diagnostics, mapDiagnostics log pass attribution = .ok diagnostics := by
  obtain ⟨parts, -, -, whole⟩ := exists_parts pass isSound
  exact ⟨_, whole⟩

/-- A log on which no attribution overflows is read to its end, and any other log overflows;
line numbers below `2 ^ 63` never do. The diagnostics are those that the lines contribute, line by
line and in one way only. A line feed, with or without a carriage return in front of it, ends the
last line and changes nothing, and what follows on it only adds diagnostics. -/
theorem mapDiagnostics_stream (log : String) (pass : PassName) (attribution : Attribution) :
    (attribution.startLine < 2 ^ 63 → IsSmall log → IsSound attribution log) ∧
      (¬ IsSound attribution log →
        mapDiagnostics log pass attribution = .error .subtraction) ∧
      (IsSound attribution log →
        (∃! parts, IsStream pass attribution (Text.logLines log.toList) parts) ∧
        ∃ parts, IsStream pass attribution (Text.logLines log.toList) parts ∧
          mapDiagnostics log pass attribution = .ok parts.flatten) ∧
      mapDiagnostics (log ++ "\n") pass attribution = mapDiagnostics log pass attribution ∧
      mapDiagnostics (log ++ "\r\n") pass attribution = mapDiagnostics log pass attribution ∧
      ∀ found, mapDiagnostics log pass attribution = .ok found →
        ∀ more, IsSound attribution more →
          (∃ later, mapDiagnostics (log ++ "\n" ++ more) pass attribution =
            .ok (found ++ later)) ∧
          ∃ later, mapDiagnostics (log ++ "\r\n" ++ more) pass attribution =
            .ok (found ++ later) := by
  have returned : log ++ "\r\n" = log ++ "\r" ++ "\n" := by
    rw [String.append_assoc]
    rfl
  refine ⟨fun height isSmall => isSmall.isSound height, mapDiagnostics_of_not_isSound, ?_,
    mapDiagnostics_concat_lineFeed log pass attribution, ?_, ?_⟩
  · intro isSound
    obtain ⟨parts, isStream, -, whole⟩ := exists_parts pass isSound
    exact ⟨⟨parts, isStream, fun other isStream' => isStream'.unique isStream⟩,
      parts, isStream, whole⟩
  · rw [returned, mapDiagnostics_concat_lineFeed, mapDiagnostics_concat_return]
  · intro found reads more isSound
    have readsReturn := (mapDiagnostics_concat_return log pass attribution).trans reads
    rw [returned]
    exact ⟨exists_mapDiagnostics_append reads isSound,
      exists_mapDiagnostics_append readsReturn isSound⟩

end Log

end Multipass
