import Multipass.Proofs.Assembly.Within
import Multipass.Proofs.Compile.Failures
import Multipass.Proofs.Located
import Multipass.Proofs.Preprocess.ProblemLines

/-!
# Errors on the lines they belong to

The errors of a pass are found in the combined text, in which the pass stands behind Common
and an empty line. An error is found on a line that is not empty, so it always lies on a line
of Common or on a line of the pass, and it is on that line of that text that the user is told
of it.
-/

namespace Multipass.Assembly

open Preprocess

/-- The source of a line of the combined text. -/
def sourceAt? (common code : List Char) (pass : PassName) : Nat → Option Source
  | 0 => none
  | index + 1 => (sourceLines common code pass)[index]?.bind (·.mark)

/-- Does something that was found in the combined text lie in Common? -/
def liesInCommon (common code : List Char) (pass : PassName) (error : Located Problem) : Bool :=
  (sourceAt? common code pass error.line).any (·.1 == .common)

/-- An error of the combined text, told as an error of one of the two texts. -/
structure IsToldAs (common code : List Char) (pass owner : PassName) (error : Located Problem)
    (told : Located String) : Prop where
  source : sourceAt? common code pass error.line = some (owner, told.line)
  message : told.content = error.content.message

/-- What a failure makes of the errors of the combined text: if some lie in Common, those are the
    errors of Common, and otherwise all of them are errors of the pass. -/
structure IsBlamed (common code : List Char) (pass : PassName) (errors : List (Located Problem))
    (failure : PassFailure) : Prop where
  some : failure.errors ≠ []
  ordered : failure.errors.Pairwise (·.line ≤ ·.line)
  within : ∀ told ∈ failure.errors, Source.IsLineOf (failure.pass, told.line) common code pass
  placed : ∀ error ∈ errors, (sourceAt? common code pass error.line).isSome
  ofCommon : (∃ error ∈ errors, liesInCommon common code pass error) →
    failure.pass = .common ∧ List.Forall₂ (IsToldAs common code pass .common)
      (errors.filter (liesInCommon common code pass)) failure.errors
  ofPass : (∀ error ∈ errors, ¬ liesInCommon common code pass error) →
    failure.pass = pass ∧ List.Forall₂ (IsToldAs common code pass pass) errors failure.errors

section Sources

variable {common code : List Char} {pass : PassName}

/-- The empty line behind Common has no text on it. -/
theorem not_hasText_separator (lines : (combine common code).commonLines ≠ 0) :
    ¬ HasText (Text.lines (combine common code).text) ((combine common code).commonLines + 1) := by
  have visible : Text.isAllBlank (dropContinuation common) = false := by
    refine Bool.eq_false_iff.mpr fun blank => lines ?_
    rw [combine_of_blank blank]
  rintro ⟨-, line, found, notEmpty⟩
  rw [lines_combined visible, Nat.add_sub_cancel, combine_of_visible visible] at found
  simp only [Text.lineCount] at found
  rw [List.getElem?_append_right (Nat.le_refl _), Nat.sub_self, List.getElem?_cons_zero] at found
  exact notEmpty (Option.some.inj found).symm

theorem isLineOf_of_sourceAt? (other : pass ≠ .common) {line : Nat} {source : Source}
    (found : sourceAt? common code pass line = some source) :
    source.IsLineOf common code pass := by
  cases line with
  | zero => cases found
  | succ index =>
    obtain ⟨marked, here, mark⟩ := Option.bind_eq_some_iff.mp found
    exact isLineOf_of_mem_sourceLines other (List.mem_of_getElem? here) mark

/-- A line with text on it has a source. -/
theorem exists_source_of_hasText {line : Nat}
    (text : HasText (Text.lines (combine common code).text) line) (pass : PassName) :
    ∃ own, sourceLine? (combine common code).commonLines line = some own ∧
      sourceAt? common code pass line =
        some (if line ≤ (combine common code).commonLines then .common else pass, own) := by
  obtain ⟨own, here⟩ : ∃ own, sourceLine? (combine common code).commonLines line = some own := by
    refine Option.ne_none_iff_exists'.mp fun separator => ?_
    obtain ⟨lines, rfl⟩ := sourceLine?_eq_none_iff.mp separator
    exact not_hasText_separator lines text
  obtain ⟨positive, content, found, -⟩ := text
  obtain ⟨index, rfl⟩ := Nat.exists_eq_add_of_le' positive
  rw [Nat.add_sub_cancel, ← texts_sourceLines common code pass, texts, List.getElem?_map] at found
  obtain ⟨marked, found, -⟩ := Option.map_eq_some_iff.mp found
  have mark := @mark_sourceLines common code pass (index + 1) positive marked.mark
    (by rw [Nat.add_sub_cancel, found, Option.map_some])
  refine ⟨own, here, ?_⟩
  rw [sourceAt?, found, Option.bind_some, mark, here, Option.map_some]

end Sources

section Attribution

variable {errors : List (Located Problem)} {commonLines : Nat} {pass : PassName}

/-- Errors that lie in Common are its errors, and the others are left out. -/
theorem attributeErrors_inCommon
    (some : ∃ error ∈ errors, 1 ≤ error.line ∧ error.line ≤ commonLines) :
    attributeErrors errors commonLines pass =
      ⟨.common, (errors.filter fun error => 1 ≤ error.line && error.line ≤ commonLines).map
        (·.map Problem.message)⟩ := by
  have filtered : ((errors.map (·.map Problem.message)).filter fun error =>
      1 ≤ error.line && error.line ≤ commonLines) =
      (errors.filter fun error => 1 ≤ error.line && error.line ≤ commonLines).map
        (·.map Problem.message) := List.filter_map
  obtain ⟨error, member, inside⟩ := some
  have kept : error ∈ errors.filter fun error => 1 ≤ error.line && error.line ≤ commonLines :=
    List.mem_filter.mpr ⟨member, by simpa using inside⟩
  have nonempty := List.ne_nil_of_mem (List.mem_map_of_mem (f := (·.map Problem.message)) kept)
  unfold attributeErrors
  simp only [List.partition_eq_filter_filter, filtered]
  exact if_neg (List.isEmpty_iff.not.mpr nonempty)

theorem sourceLine?_mono {first second own other : Nat} (le : first ≤ second)
    (behind : commonLines < first) (ofFirst : sourceLine? commonLines first = some own)
    (ofSecond : sourceLine? commonLines second = some other) : own ≤ other := by
  unfold sourceLine? at ofFirst ofSecond
  grind

/-- Where all errors lie behind Common, they are errors of the pass, on their own lines. -/
theorem attributeErrors_behind (behind : ∀ error ∈ errors, commonLines < error.line)
    (placed : ∀ error ∈ errors, (sourceLine? commonLines error.line).isSome) :
    attributeErrors errors commonLines pass =
      ⟨pass, errors.map fun error =>
        ⟨(sourceLine? commonLines error.line).getD 1, error.content.message⟩⟩ := by
  have noneInCommon : ∀ error ∈ errors.map (·.map Problem.message),
      ¬ (1 ≤ error.line && error.line ≤ commonLines) = true := by
    intro error member
    obtain ⟨found, inErrors, rfl⟩ := List.mem_map.mp member
    have beyond := behind found inErrors
    refine fun inside => Nat.not_le_of_lt beyond ?_
    exact of_decide_eq_true ((Bool.and_eq_true _ _).mp inside).2
  unfold attributeErrors
  simp only [List.partition_eq_filter_filter]
  rw [List.filter_eq_nil_iff.mpr noneInCommon, List.filter_eq_self.mpr fun error member =>
    Bool.not_eq_true' _ ▸ Bool.eq_false_iff.mpr (noneInCommon error member)]
  rw [if_pos List.isEmpty_nil, List.map_map]
  congr 1
  refine List.map_congr_left fun error member => ?_
  have beyond := behind error member
  obtain ⟨own, here⟩ := Option.isSome_iff_exists.mp (placed error member)
  simp only [Function.comp_apply, Located.map, here, Option.getD_some]
  rw [if_neg (by omega)]
  congr 1
  unfold sourceLine? at here
  split at here
  · cases here
    rw [if_pos (by omega)]
    omega
  · split at here
    · cases here
      rw [if_neg (by omega)]
      omega
    · cases here

end Attribution

section Assembled

variable {common code : String} {pass : PassName} {failure : PassFailure}

theorem assemble_eq_error_iff :
    assemble common code pass = .error failure ↔
      (outcomeOf (combine common.toList code.toList).text).errors ≠ [] ∧
        attributeErrors (outcomeOf (combine common.toList code.toList).text).errors
          (combine common.toList code.toList).commonLines pass = failure := by
  by_cases fine : (outcomeOf (combine common.toList code.toList).text).errors = []
  · obtain ⟨assembled, assembles⟩ := exists_assembled pass fine
    simp [assembles, fine]
  · have failed : ¬ (outcomeOf (combine common.toList code.toList).text).isOk = true :=
      List.isEmpty_iff.not.mpr fine
    simp [assemble, failed, fine]

end Assembled

section Blamed

variable {common code : List Char} {pass owner : PassName} {errors : List (Located Problem)}
  {told : List (Located String)}

theorem isLineOf_of_told (other : pass ≠ .common)
    (each : List.Forall₂ (IsToldAs common code pass owner) errors told) :
    ∀ line ∈ told, Source.IsLineOf (owner, line.line) common code pass := by
  intro line member
  obtain ⟨index, inside, rfl⟩ := List.mem_iff_getElem.mp member
  have here := each.get (each.length_eq ▸ inside) inside
  exact isLineOf_of_sourceAt? other here.source

theorem liesInCommon_iff (other : pass ≠ .common) {error : Located Problem}
    (text : HasText (Text.lines (combine common code).text) error.line) :
    liesInCommon common code pass error ↔
      1 ≤ error.line ∧ error.line ≤ (combine common code).commonLines := by
  obtain ⟨own, -, source⟩ := exists_source_of_hasText text pass
  unfold liesInCommon
  rw [source]
  by_cases inside : error.line ≤ (combine common code).commonLines
  · simp [inside, text.1]
  · simp [inside, other]

section Texts

variable (texts : ∀ error ∈ errors, HasText (Text.lines (combine common code).text) error.line)

include texts

theorem forall₂_told_inCommon (pass : PassName)
    (inCommon : ∀ error ∈ errors, error.line ≤ (combine common code).commonLines) :
    List.Forall₂ (IsToldAs common code pass .common) errors
      (errors.map (·.map Problem.message)) := by
  refine List.forall₂_map_right_iff.mpr (List.forall₂_same.mpr fun error member => ?_)
  obtain ⟨own, line, source⟩ := exists_source_of_hasText (texts error member) pass
  rw [sourceLine?, if_pos (.inr (inCommon error member))] at line
  rw [if_pos (inCommon error member), ← Option.some.inj line] at source
  exact ⟨source, rfl⟩

theorem forall₂_told_behind (pass : PassName)
    (behind : ∀ error ∈ errors, (combine common code).commonLines < error.line) :
    List.Forall₂ (IsToldAs common code pass pass) errors (errors.map fun error =>
      ⟨(sourceLine? (combine common code).commonLines error.line).getD 1,
        error.content.message⟩) := by
  refine List.forall₂_map_right_iff.mpr (List.forall₂_same.mpr fun error member => ?_)
  obtain ⟨own, line, source⟩ := exists_source_of_hasText (texts error member) pass
  rw [if_neg (Nat.not_le_of_lt (behind error member))] at source
  refine ⟨?_, rfl⟩
  rw [line, Option.getD_some]
  exact source

theorem isSome_sourceAt? (pass : PassName) :
    ∀ error ∈ errors, (sourceAt? common code pass error.line).isSome := by
  intro error member
  obtain ⟨own, -, source⟩ := exists_source_of_hasText (texts error member) pass
  exact Option.isSome_of_eq_some source

section Ordered

variable (other : pass ≠ .common) (ascending : errors.Pairwise (·.line ≤ ·.line))
  (faulty : errors ≠ [])

include other ascending faulty

/-- Errors of Common are told on its lines. -/
theorem isBlamed_inCommon (inCommon : ∃ error ∈ errors, liesInCommon common code pass error) :
    IsBlamed common code pass errors
      (attributeErrors errors (combine common code).commonLines pass) := by
  have lies := fun error member => liesInCommon_iff other (texts error member)
  have some := attributeErrors_ne_nil faulty (combine common code).commonLines pass
  obtain ⟨error, member, lie⟩ := inCommon
  have filtered : (errors.filter fun error =>
      1 ≤ error.line && error.line ≤ (combine common code).commonLines) =
      errors.filter (liesInCommon common code pass) := by
    refine List.filter_congr fun error member => Bool.eq_iff_iff.mpr ?_
    rw [lies error member, Bool.and_eq_true, decide_eq_true_eq, decide_eq_true_eq]
  have each := forall₂_told_inCommon
    (fun error member => texts error (List.mem_of_mem_filter member)) pass fun error member =>
      ((lies error (List.mem_of_mem_filter member)).mp (List.of_mem_filter member)).2
  rw [attributeErrors_inCommon ⟨error, member, (lies error member).mp lie⟩, filtered] at some ⊢
  exact {
    some
    ordered := (ascending.filter _).map _ fun _ _ le => le
    within := isLineOf_of_told other each
    placed := isSome_sourceAt? texts pass
    ofCommon := fun _ => ⟨rfl, each⟩
    ofPass := fun none => absurd lie (none error member) }

/-- Where Common has no errors, those of the pass are told on the lines of the pass. -/
theorem isBlamed_behind (inCommon : ¬ ∃ error ∈ errors, liesInCommon common code pass error) :
    IsBlamed common code pass errors
      (attributeErrors errors (combine common code).commonLines pass) := by
  have some := attributeErrors_ne_nil faulty (combine common code).commonLines pass
  have behind : ∀ error ∈ errors, (combine common code).commonLines < error.line := by
    intro error member
    have text := texts error member
    refine Nat.lt_of_not_le fun inside => inCommon ⟨error, member, ?_⟩
    exact (liesInCommon_iff other text).mpr ⟨text.1, inside⟩
  have sources := fun error member => exists_source_of_hasText (texts error member) pass
  have lines : ∀ error ∈ errors,
      (sourceLine? (combine common code).commonLines error.line).isSome := by
    intro error member
    obtain ⟨own, line, -⟩ := sources error member
    exact Option.isSome_of_eq_some line
  have each := forall₂_told_behind texts pass behind
  rw [attributeErrors_behind behind lines] at some ⊢
  exact {
    some
    ordered := by
      refine List.pairwise_map.mpr (ascending.imp_of_mem ?_)
      intro first second isFirst isSecond le
      obtain ⟨own, line, -⟩ := sources first isFirst
      obtain ⟨later, laterLine, -⟩ := sources second isSecond
      rw [line, laterLine]
      exact sourceLine?_mono le (behind first isFirst) line laterLine
    within := isLineOf_of_told other each
    placed := isSome_sourceAt? texts pass
    ofCommon := fun some => absurd some inCommon
    ofPass := fun _ => ⟨rfl, each⟩ }

/-- What is told of the errors of the combined text is told on the lines of Common or of the pass
    that they lie on. -/
theorem isBlamed_attributeErrors :
    IsBlamed common code pass errors
      (attributeErrors errors (combine common code).commonLines pass) := by
  by_cases inCommon : ∃ error ∈ errors, liesInCommon common code pass error
  · exact isBlamed_inCommon texts other ascending faulty inCommon
  · exact isBlamed_behind texts other ascending faulty inCommon

end Ordered

end Texts

end Blamed

section Assembled

variable {common code : String} {pass : PassName} {failure : PassFailure}

/-- A pass cannot be assembled when an error is found in its text or in Common in front of it.
    Each error that is then told is told where it lies. -/
theorem assemble_errors (other : pass ≠ .common) :
    ((∃ failure, assemble common code pass = .error failure) ↔
        (outcomeOf (combine common.toList code.toList).text).errors ≠ []) ∧
      ∀ failure, assemble common code pass = .error failure →
        IsBlamed common.toList code.toList pass
          (outcomeOf (combine common.toList code.toList).text).errors failure := by
  refine ⟨⟨fun ⟨failure, failed⟩ => (assemble_eq_error_iff.mp failed).1,
    fun faulty => ⟨_, assemble_eq_error_iff.mpr ⟨faulty, rfl⟩⟩⟩, fun failure failed => ?_⟩
  obtain ⟨faulty, rfl⟩ := assemble_eq_error_iff.mp failed
  exact isBlamed_attributeErrors (fun _ => hasText_of_mem_errors) other
    (Located.sortByLine_ascending _) faulty

private theorem eventsOf_misplaced :
    eventsOf (combine "int a;".toList "#else".toList).text =
      [⟨1, .code "int a;".toList⟩, ⟨2, .code []⟩, ⟨3, .directive .otherwise⟩] := by
  have lines : Text.lines (combine "int a;".toList "#else".toList).text =
      ["int a;".toList, [], "#else".toList] := by decide
  have joins : Directive.joinContinuations (Text.trim "#else".toList) [] =
      ("#else".toList, [], []) := by decide
  have last : Directive.ofText "#else".toList = .otherwise := by decide +kernel
  rw [eventsOf, lines, events_code (by decide) rfl, events_code (by decide +kernel) rfl,
    events_directive (by decide +kernel) joins, last, events]

theorem assemble_errors_misplaced :
    PassName.image ≠ .common ∧ ∃ failure, assemble "int a;" "#else" .image = .error failure ∧
      IsBlamed "int a;".toList "#else".toList .image
        (outcomeOf (combine "int a;".toList "#else".toList).text).errors failure := by
  have result := @assemble_errors "int a;" "#else" .image (by decide)
  have faulty : (outcomeOf (combine "int a;".toList "#else".toList).text).errors ≠ [] := by
    rw [errors_outcomeOf, eventsOf_misplaced]
    decide +kernel
  obtain ⟨failure, failed⟩ := result.1.mpr faulty
  exact ⟨by decide, failure, failed, result.2 failure failed⟩

end Assembled

end Multipass.Assembly
