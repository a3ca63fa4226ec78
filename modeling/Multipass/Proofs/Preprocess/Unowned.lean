import Multipass.Proofs.LineMap
import Multipass.Proofs.Preprocess.DirectiveLines

/-!
# Texts that stay as they are

A line that begins with `#` lies in a block comment, continues a directive, or begins one. Only
the lines that belong to no directive are read for comments, those inside of a comment included; a
comment that a directive opens counts for nothing. A text stays as it is, character by character
and line by line, exactly if every one of its directives has a keyword that is not handled here.
-/

namespace Multipass.Preprocess

namespace Directive

/-- The keywords that are handled here. -/
def ownKeywords : List String :=
  ["define", "undef", "ifdef", "ifndef", "if", "elif", "else", "endif", "error"]

/-- Has a directive a keyword that is left to the compiler? -/
def IsForeign (text : List Char) : Prop :=
  keyword text ≠ [] ∧ String.ofList (keyword text) ∉ ownKeywords

instance : DecidablePred IsForeign := fun text =>
  inferInstanceAs (Decidable (keyword text ≠ [] ∧ String.ofList (keyword text) ∉ ownKeywords))

/-- Does a directive go on behind a line of it? -/
def isContinued (line : List Char) : Bool :=
  (Text.trim line).getLast? == some '\\'

theorem ofText_eq_foreign_iff (text : List Char) : ofText text = .foreign ↔ IsForeign text := by
  rw [ofText_eq, IsForeign]
  have empty : keyword text = [] ↔ String.ofList (keyword text) = "" := by
    rw [← String.toList_inj, String.toList_ofList]
    rfl
  rw [Ne, empty]
  generalize String.ofList (keyword text) = word
  unfold ofKeyword ownKeywords
  split <;> simp_all

end Directive

/-- What a line is to a reader of directives. -/
inductive Role where
  | commented
  | code
  | directive
  | continuation
  deriving DecidableEq, Repr

/-- A line with its role and the lines behind it. -/
structure Assigned where
  role : Role
  line : List Char
  later : List (List Char)

/-- The roles of lines, one after the other. The lines in front that belong to no directive are
    read for comments; the line right in front may be one of a directive that goes on. -/
def assign (read : List (List Char)) (continued : Bool) : List (List Char) → List Assigned
  | [] => []
  | line :: rest =>
    if continued then
      ⟨.continuation, line, rest⟩ :: assign read (Directive.isContinued line) rest
    else if Comment.placeAfter .code (Text.terminated read) = .block then
      ⟨.commented, line, rest⟩ :: assign (read ++ [line]) false rest
    else if Directive.isDirectiveLine line then
      ⟨.directive, line, rest⟩ :: assign read (Directive.isContinued line) rest
    else ⟨.code, line, rest⟩ :: assign (read ++ [line]) false rest

/-- A line that begins with `#` lies in a block comment, continues a directive, or is left to the
    compiler, with the lines that it continues on. -/
def Assigned.Stays (assigned : Assigned) : Prop :=
  Directive.isDirectiveLine assigned.line = true →
    assigned.role = .commented ∨ assigned.role = .continuation ∨
      Directive.IsForeign
        (Directive.joinContinuations (Text.trim assigned.line) assigned.later).1

instance : DecidablePred Assigned.Stays := fun assigned =>
  inferInstanceAs (Decidable (Directive.isDirectiveLine assigned.line = true → _))

/-- Do all lines stay as they are? -/
def AllStay (lines : List Assigned) : Prop :=
  ∀ assigned ∈ lines, assigned.Stays

/-- Is every directive of a text left to the compiler? -/
def OwnsNothing (text : List Char) : Prop :=
  AllStay (assign [] false (Text.lines text))

instance : DecidablePred OwnsNothing := fun text =>
  inferInstanceAs (Decidable (∀ assigned ∈ assign [] false (Text.lines text), assigned.Stays))

/-! ## Comments and continuations -/

section Roles

variable {line : List Char} {read rest lines : List (List Char)}

/-- A reader goes through lines as their comments are followed. -/
theorem placeAfter_terminated (oneLine : ∀ line ∈ lines, '\n' ∉ line) (inside : Bool) :
    Comment.placeAfter (.ofInside inside) (Text.terminated lines) =
      .ofInside (lines.foldl Comment.insideAfter inside) := by
  induction lines generalizing inside with
  | nil => rfl
  | cons line rest ih =>
    rw [placeAfter_terminated_cons (oneLine line List.mem_cons_self), List.foldl_cons]
    exact ih (fun other member => oneLine other (List.mem_cons_of_mem _ member)) _

theorem placeAfter_terminated_eq_block_iff (oneLine : ∀ line ∈ lines, '\n' ∉ line) :
    Comment.placeAfter .code (Text.terminated lines) = .block ↔
      lines.foldl Comment.insideAfter false = true := by
  have place := placeAfter_terminated oneLine false
  rw [show Comment.Place.ofInside false = .code from rfl] at place
  rw [place]
  cases lines.foldl Comment.insideAfter false <;> simp [Comment.Place.ofInside]

/-- The lines that a directive goes on to are continuations, and no others. -/
theorem assign_joinContinuations (read : List (List Char)) (text : List Char)
    (rest : List (List Char)) :
    ∃ taken, (∀ assigned ∈ taken, assigned.Stays) ∧
      assign read (text.getLast? == some '\\') rest =
        taken ++ assign read false (Directive.joinContinuations text rest).2.2 := by
  induction rest generalizing text with
  | nil => exact ⟨[], by simp, rfl⟩
  | cons next rest ih =>
    unfold Directive.joinContinuations
    split
    · rename_i last
      obtain ⟨taken, stay, later⟩ := ih (text.dropLast ++ ' ' :: Text.trim next)
      have goesOn : ((text.dropLast ++ ' ' :: Text.trim next).getLast? == some '\\') =
          Directive.isContinued next := by
        rw [Directive.isContinued, List.getLast?_append, List.getLast?_cons]
        cases (Text.trim next).getLast? <;> rfl
      rw [goesOn] at later
      refine ⟨⟨.continuation, next, rest⟩ :: taken, ?_, ?_⟩
      · exact List.forall_mem_cons.mpr ⟨fun _ => .inr (.inl rfl), stay⟩
      · rw [assign, if_pos (by rw [last]; rfl), later]
        rfl
    · rename_i last
      have ended : (text.getLast? == some '\\') = false := by simpa using last
      exact ⟨[], by simp, by rw [ended]; rfl⟩

/-- A line that belongs to no directive stays. -/
theorem allStay_plain_iff (oneLine : ∀ line ∈ read, '\n' ∉ line)
    (plain : ¬ (!read.foldl Comment.insideAfter false && Directive.isDirectiveLine line) = true) :
    AllStay (assign read false (line :: rest)) ↔ AllStay (assign (read ++ [line]) false rest) := by
  have place := placeAfter_terminated_eq_block_iff oneLine
  by_cases inComment : read.foldl Comment.insideAfter false = true
  · rw [assign, if_neg Bool.false_ne_true, if_pos (place.mpr inComment), AllStay,
      List.forall_mem_cons]
    exact and_iff_right fun _ => .inl rfl
  · have noDirective : ¬ Directive.isDirectiveLine line = true := by simp_all
    rw [assign, if_neg Bool.false_ne_true, if_neg (mt place.mp inComment), if_neg noDirective,
      AllStay, List.forall_mem_cons]
    exact and_iff_right fun marked => absurd marked noDirective

/-- A directive stays if it is left to the compiler. -/
theorem allStay_directive_iff (oneLine : ∀ line ∈ read, '\n' ∉ line)
    (marked : (!read.foldl Comment.insideAfter false && Directive.isDirectiveLine line) = true)
    {joined : List Char × List (List Char) × List (List Char)}
    (joins : Directive.joinContinuations (Text.trim line) rest = joined) :
    AllStay (assign read false (line :: rest)) ↔
      Directive.IsForeign joined.1 ∧ AllStay (assign read false joined.2.2) := by
  obtain ⟨outside, directive⟩ := (Bool.and_eq_true _ _).mp marked
  have place := mt (placeAfter_terminated_eq_block_iff oneLine).mp (by simpa using outside)
  obtain ⟨taken, stay, later⟩ := assign_joinContinuations read (Text.trim line) rest
  have first : Assigned.Stays ⟨.directive, line, rest⟩ ↔ Directive.IsForeign joined.1 := by
    subst joins
    simp [Assigned.Stays, directive]
  rw [assign, if_neg Bool.false_ne_true, if_neg place, if_pos directive, AllStay,
    List.forall_mem_cons, first, Directive.isContinued, later, joins, List.forall_mem_append,
    and_iff_right stay]
  rfl

end Roles

/-! ## Runs -/

/-- The state of a run that has met nothing but comments and directives of the compiler. -/
def State.following (inside : Bool) : State :=
  { State.initial with insideComment := inside }

theorem State.codeLine_following (inside : Bool) (number : Nat) (line : List Char) :
    (State.following inside).codeLine number line =
      (line, .following (Comment.insideAfter inside line)) := rfl

/-- All lines stay and a run keeps them as they are, or a directive is handled here and a run keeps
    fewer lines. -/
def KeepsAllOrFewer (read : List (List Char)) (number : Nat) (lines : List (List Char)) : Prop :=
  AllStay (assign read false lines) ∧ (∃ inside,
      run (.following (read.foldl Comment.insideAfter false)) number lines =
        (keepFrom number lines, .following inside)) ∨
    ¬ AllStay (assign read false lines) ∧
      (run (.following (read.foldl Comment.insideAfter false)) number lines).1.length < lines.length

section Runs

variable {line : List Char} {read rest : List (List Char)} {number : Nat}

theorem keepsAllOrFewer_plain (oneLine : ∀ line ∈ read, '\n' ∉ line)
    (plain : ¬ (!read.foldl Comment.insideAfter false && Directive.isDirectiveLine line) = true)
    (later : KeepsAllOrFewer (read ++ [line]) (number + 1) rest) :
    KeepsAllOrFewer read number (line :: rest) := by
  have ran : run (.following (read.foldl Comment.insideAfter false)) number (line :: rest) = _ :=
    run_code plain rfl
  have next : ((State.following (read.foldl Comment.insideAfter false)).codeLine number line).2 =
      .following ((read ++ [line]).foldl Comment.insideAfter false) := by
    rw [State.codeLine_following, List.foldl_append]
    rfl
  rw [next] at ran
  unfold KeepsAllOrFewer
  rw [allStay_plain_iff oneLine plain, ran]
  refine later.imp (And.imp_right ?_) (And.imp_right Nat.succ_lt_succ)
  rintro ⟨inside, keeps⟩
  exact ⟨inside, by rw [keeps]; rfl⟩

theorem keepsAllOrFewer_directive (oneLine : ∀ line ∈ read, '\n' ∉ line)
    (marked : (!read.foldl Comment.insideAfter false && Directive.isDirectiveLine line) = true)
    {joined : List Char × List (List Char) × List (List Char)}
    (joins : Directive.joinContinuations (Text.trim line) rest = joined)
    (later : KeepsAllOrFewer read (number + 1 + joined.2.1.length) joined.2.2) :
    KeepsAllOrFewer read number (line :: rest) := by
  have ran : run (.following (read.foldl Comment.insideAfter false)) number (line :: rest) = _ :=
    run_directive marked joins
  have whole : line :: rest = line :: joined.2.1 ++ joined.2.2 := by
    rw [← joins, List.cons_append, Directive.joinContinuations_append]
  have place : number + (line :: joined.2.1).length = number + 1 + joined.2.1.length := by
    rw [List.length_cons]
    omega
  unfold KeepsAllOrFewer
  rw [allStay_directive_iff oneLine marked joins, ran, whole]
  by_cases foreign : Directive.IsForeign joined.1
  · have left : Directive.ofText joined.1 = .foreign :=
      (Directive.ofText_eq_foreign_iff joined.1).mpr foreign
    have kept : (Directive.foreign = .foreign &&
        (State.following (read.foldl Comment.insideAfter false)).active) = true := by
      simp [State.following, State.initial, State.active]
    rw [left, if_pos kept, and_iff_right foreign]
    refine later.imp (And.imp_right ?_) (And.imp_right fun fewer => ?_)
    · rintro ⟨inside, keeps⟩
      refine ⟨inside, ?_⟩
      rw [State.directive, keeps, keepFrom_append, place]
    · rw [List.length_append, List.length_append, length_keepFrom]
      exact Nat.add_lt_add_left fewer _
  · have notForeign := mt (Directive.ofText_eq_foreign_iff joined.1).mp foreign
    refine .inr ⟨fun stay => foreign stay.1, ?_⟩
    rw [if_neg (by simp [notForeign]), List.nil_append, List.length_append, List.length_cons]
    exact Nat.lt_of_le_of_lt (length_run_le _ _ _) (by omega)

theorem keepsAllOrFewer (readOneLine : ∀ line ∈ read, '\n' ∉ line) {lines : List (List Char)}
    (oneLine : ∀ line ∈ lines, '\n' ∉ line) (number : Nat) : KeepsAllOrFewer read number lines := by
  induction size : lines.length using Nat.strong_induction_on generalizing read number lines with
  | _ size ih =>
    subst size
    cases lines with
    | nil =>
      refine .inl ⟨fun _ member => absurd member List.not_mem_nil,
        read.foldl Comment.insideAfter false, ?_⟩
      rw [run, keepFrom]
    | cons line rest =>
      obtain ⟨firstOneLine, restOneLine⟩ := List.forall_mem_cons.mp oneLine
      by_cases marked : (!read.foldl Comment.insideAfter false &&
          Directive.isDirectiveLine line) = true
      · have whole := Directive.joinContinuations_append (Text.trim line) rest
        refine keepsAllOrFewer_directive readOneLine marked rfl (ih _ ?_ readOneLine ?_ _ rfl)
        · exact Nat.lt_succ_of_le (Directive.remaining_length_le _ _)
        · intro other member
          exact restOneLine other (by rw [← whole]; exact List.mem_append_right _ member)
      · refine keepsAllOrFewer_plain readOneLine marked
          (ih _ (Nat.lt_succ_self _) ?_ restOneLine _ rfl)
        exact List.forall_mem_append.mpr ⟨readOneLine, by simpa using firstOneLine⟩

end Runs

end Multipass.Preprocess

namespace Multipass

open Preprocess

/-- A text stays as it is, without an error and with every line mapped to itself, exactly if none
    of its directives is handled here. -/
theorem preprocess_unchanged_iff (source : String) :
    OwnsNothing source.toList ↔
      (preprocess source).code = source ∧ (preprocess source).errors = [] ∧
        (preprocess source).lineMap.toList =
          (List.range' 1 (Text.lineCount source.toList)).map fun number => (number, number) := by
  have cases : KeepsAllOrFewer [] 1 (Text.lines source.toList) :=
    keepsAllOrFewer (by simp) (fun _ => Text.noBreak_of_mem_lines) 1
  have origins : (preprocess source).lineMap.toList =
      LineMap.numbered 1 ((run .initial 1 (Text.lines source.toList)).1.map (·.origin)) := rfl
  constructor
  · intro stay
    obtain ⟨-, inside, keeps⟩ | ⟨lost, -⟩ := cases
    · have keeps : run .initial 1 (Text.lines source.toList) = _ := keeps
      refine ⟨?_, ?_, ?_⟩
      · show String.ofList (Text.unlines ((run .initial 1 _).1.map (·.text))) = source
        rw [keeps, map_text_keepFrom, Text.unlines_lines, String.ofList_toList]
      · show (outcomeOf source.toList).errors = []
        rw [errors_eq_nil_iff, keeps]
        exact ⟨rfl, rfl⟩
      · rw [origins, keeps, map_origin_keepFrom, LineMap.numbered_range']
        rfl
    · exact absurd stay lost
  · rintro ⟨-, -, identity⟩
    obtain ⟨stay, -⟩ | ⟨-, fewer⟩ := cases
    · exact stay
    · have size := congrArg List.length identity
      rw [origins, ← List.length_map Prod.snd, LineMap.values_numbered, List.length_map,
        List.length_map, List.length_range'] at size
      exact absurd size (Nat.ne_of_lt fewer)

/-- A definition in a comment, a directive over three lines that has its keyword on the second and
    opens a comment, another directive right behind it, and a comment that stays open. -/
def foreignText : String :=
  "float a; /* é\r\n #define A 1 \\\n*/ A\n#\\\n pragma x /* \\\r\n#if 0\n#line 3\n\n/*\n#endif"

theorem preprocess_unchanged_iff_foreign :
    OwnsNothing foreignText.toList ∧ (preprocess foreignText).code = foreignText := by
  have ownsNothing : OwnsNothing foreignText.toList := by decide +kernel
  exact ⟨ownsNothing, ((preprocess_unchanged_iff foreignText).mp ownsNothing).1⟩

end Multipass
