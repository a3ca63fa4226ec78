import Mathlib.Data.List.Forall2
import Multipass.Preprocess.Run

/-!
# One step of a run, and where its lines come from

A run handles a directive, keeps a line of code, or leaves a line out. Lines that
carry marks show where each kept line comes from: what a run keeps of a line carries
the mark of that line, and the origin noted beside it is the number of that line.
-/

namespace Multipass.Preprocess

section Steps

variable {state : State} {number : Nat} {line : List Char} {rest : List (List Char)}

theorem run_directive (marked : (!state.insideComment && Directive.isDirectiveLine line) = true)
    {joined : List Char × List (List Char) × List (List Char)}
    (joins : Directive.joinContinuations (Text.trim line) rest = joined) :
    run state number (line :: rest) =
      ((if Directive.ofText joined.1 = .foreign && state.active then
          keepFrom number (line :: joined.2.1) else []) ++
        (run (state.directive number (Directive.ofText joined.1))
          (number + 1 + joined.2.1.length) joined.2.2).1,
        (run (state.directive number (Directive.ofText joined.1))
          (number + 1 + joined.2.1.length) joined.2.2).2) := by
  subst joins
  rw [run, if_pos marked]

theorem run_code (plain : ¬ (!state.insideComment && Directive.isDirectiveLine line) = true)
    (active : state.active = true) :
    run state number (line :: rest) =
      (⟨number, (state.codeLine number line).1⟩ ::
          (run (state.codeLine number line).2 (number + 1) rest).1,
        (run (state.codeLine number line).2 (number + 1) rest).2) := by
  rw [run, if_neg plain, if_pos active]

theorem run_skipped (plain : ¬ (!state.insideComment && Directive.isDirectiveLine line) = true)
    (inactive : ¬ state.active = true) :
    run state number (line :: rest) = run state (number + 1) rest := by
  rw [run, if_neg plain, if_neg inactive]

end Steps

theorem keepFrom_append (number : Nat) (front back : List (List Char)) :
    keepFrom number (front ++ back) =
      keepFrom number front ++ keepFrom (number + front.length) back := by
  induction front generalizing number with
  | nil => rfl
  | cons line rest ih =>
    simp only [List.cons_append, keepFrom, ih, List.length_cons]
    rw [Nat.add_right_comm, Nat.add_assoc]

theorem length_keepFrom (number : Nat) (lines : List (List Char)) :
    (keepFrom number lines).length = lines.length := by
  induction lines generalizing number with
  | nil => rfl
  | cons line rest ih => rw [keepFrom, List.length_cons, List.length_cons, ih]

theorem map_text_keepFrom (number : Nat) (lines : List (List Char)) :
    (keepFrom number lines).map (·.text) = lines := by
  induction lines generalizing number with
  | nil => rfl
  | cons line rest ih => rw [keepFrom, List.map_cons, ih]

theorem map_origin_keepFrom (number : Nat) (lines : List (List Char)) :
    (keepFrom number lines).map (·.origin) = List.range' number lines.length := by
  induction lines generalizing number with
  | nil => rfl
  | cons line rest ih =>
    rw [keepFrom, List.map_cons, ih, List.length_cons, List.range'_succ]

/-- A run keeps no more lines than there are. -/
theorem length_run_le (state : State) (number : Nat) (lines : List (List Char)) :
    (run state number lines).1.length ≤ lines.length := by
  fun_induction run state number lines with
  | case1 => exact Nat.le_refl 0
  | case2 state number line rest marked joined _ directive here later final ran ih =>
    have whole : joined.2.1 ++ joined.2.2 = rest := Directive.joinContinuations_append _ _
    have hereLength : here.length ≤ joined.2.1.length + 1 := by
      simp only [here]
      split
      · exact Nat.le_of_eq (length_keepFrom number (line :: joined.2.1))
      · exact Nat.zero_le _
    rw [ran] at ih
    simp only at ih
    rw [← whole, List.length_cons, List.length_append, List.length_append]
    omega
  | case3 state number line rest plain active text expanded code later final ran ih =>
    rw [ran] at ih
    exact Nat.succ_le_succ ih
  | case4 state number line rest plain inactive ih => exact Nat.le_succ_of_le ih

/-- Is a line without macros kept as it is, with no comment open behind it? -/
def IsPlain (line : List Char) : Prop :=
  Directive.isDirectiveLine line = false ∧ Comment.insideAfter false line = false

theorem codeLine_of_isPlain {line : List Char} (plain : IsPlain line) (number : Nat) :
    State.initial.codeLine number line = (line, .initial) := by
  show (line, { State.initial with insideComment := Comment.insideAfter false line }) = _
  rw [plain.2]
  rfl

/-- Plain lines are what a run makes of them. -/
theorem run_of_isPlain {lines : List (List Char)} (plain : ∀ line ∈ lines, IsPlain line)
    (number : Nat) : run .initial number lines = (keepFrom number lines, .initial) := by
  induction lines generalizing number with
  | nil => rw [run, keepFrom]
  | cons line rest ih =>
    have here := plain line List.mem_cons_self
    have later := ih (fun other member => plain other (List.mem_cons_of_mem _ member)) (number + 1)
    rw [run_code (by rw [here.1]; decide) rfl, codeLine_of_isPlain here, later]
    rfl

/-- A line with a mark that tells where it comes from. -/
structure Marked (μ : Type) where
  mark : μ
  text : List Char
  deriving DecidableEq, Repr

section Marks

variable {μ : Type}

/-- The lines without their marks. -/
def texts (lines : List (Marked μ)) : List (List Char) :=
  lines.map (·.text)

/-- What a run keeps of lines with marks. What is kept of a line carries the mark of
    that line; nothing is counted. -/
def runMarked (state : State) (number : Nat) (lines : List (Marked μ)) : List (Marked μ) :=
  match lines with
  | [] => []
  | line :: rest =>
    if !state.insideComment && Directive.isDirectiveLine line.text then
      let joined := Directive.joinContinuations (Text.trim line.text) (texts rest)
      let directive := Directive.ofText joined.1
      let taken := joined.2.1.length
      let kept := if directive = .foreign && state.active then line :: rest.take taken else []
      kept ++ runMarked (state.directive number directive) (number + 1 + taken) (rest.drop taken)
    else if state.active then
      let (text, state) := state.codeLine number line.text
      ⟨line.mark, text⟩ :: runMarked state (number + 1) rest
    else runMarked state (number + 1) rest
  termination_by lines.length

theorem runMarked_of_isPlain {lines : List (Marked μ)}
    (plain : ∀ line ∈ lines, IsPlain line.text) (number : Nat) :
    runMarked .initial number lines = lines := by
  induction lines generalizing number with
  | nil => rw [runMarked]
  | cons line rest ih =>
    have here := plain line List.mem_cons_self
    have later := ih (fun other member => plain other (List.mem_cons_of_mem _ member)) (number + 1)
    rw [runMarked, if_neg (by rw [here.1]; decide), if_pos (by rfl), codeLine_of_isPlain here]
    show _ :: runMarked .initial (number + 1) rest = _
    rw [later]

/-- Is a kept line what a marked one says, its origin being the number of a line with
    that mark? The lines have numbers from the given one on. -/
structure ComesFrom (number : Nat) (lines : List (Marked μ)) (kept : KeptLine)
    (marked : Marked μ) : Prop where
  text : kept.text = marked.text
  le : number ≤ kept.origin
  mark : (lines[kept.origin - number]?).map (·.mark) = some marked.mark

theorem ComesFrom.lt {number : Nat} {lines : List (Marked μ)} {kept : KeptLine}
    {marked : Marked μ} (comes : ComesFrom number lines kept marked) :
    kept.origin < number + lines.length := by
  obtain ⟨line, found, -⟩ := Option.map_eq_some_iff.mp comes.mark
  have inside := (List.getElem?_eq_some_iff.mp found).1
  have := comes.le
  omega

theorem ComesFrom.within {number : Nat} {front : List (Marked μ)} {kept : KeptLine}
    {marked : Marked μ} (comes : ComesFrom number front kept marked) (back : List (Marked μ)) :
    ComesFrom number (front ++ back) kept marked := by
  refine ⟨comes.text, comes.le, ?_⟩
  have inside := comes.lt
  have := comes.le
  rw [List.getElem?_append_left (by omega)]
  exact comes.mark

theorem ComesFrom.after {number : Nat} {back : List (Marked μ)} {kept : KeptLine}
    {marked : Marked μ} (front : List (Marked μ))
    (comes : ComesFrom (number + front.length) back kept marked) :
    ComesFrom number (front ++ back) kept marked := by
  have bound := comes.le
  refine ⟨comes.text, by omega, ?_⟩
  rw [List.getElem?_append_right (by omega), Nat.sub_sub]
  exact comes.mark

theorem keepFrom_comesFrom (number : Nat) (lines : List (Marked μ)) :
    List.Forall₂ (ComesFrom number lines) (keepFrom number (texts lines)) lines := by
  induction lines generalizing number with
  | nil => exact .nil
  | cons line rest ih =>
    refine .cons ⟨rfl, Nat.le_refl number, by simp⟩ ?_
    refine List.Forall₂.imp ?_ (ih (number + 1))
    intro kept marked comes
    exact ComesFrom.after [line] comes

/-- The marks and the origins of the kept lines agree. -/
theorem run_comesFrom (state : State) (number : Nat) (lines : List (Marked μ)) :
    List.Forall₂ (ComesFrom number lines) (run state number (texts lines)).1
      (runMarked state number lines) := by
  fun_induction runMarked state number lines with
  | case1 => rw [texts, List.map_nil, run]; exact .nil
  | case2 state number line rest marked joined directive taken here ih =>
    have whole : joined.2.1 ++ joined.2.2 = texts rest := Directive.joinContinuations_append _ _
    have takenTexts : joined.2.1 = texts (rest.take taken) := by
      rw [texts, List.map_take, ← texts, ← whole, List.take_left]
    have remaining : joined.2.2 = texts (rest.drop taken) := by
      rw [texts, List.map_drop, ← texts, ← whole, List.drop_left]
    have size : number + (line :: rest.take taken).length = number + 1 + taken := by
      have := congrArg List.length takenTexts
      simp only [texts, List.length_map] at this
      rw [List.length_cons, ← this]
      omega
    have split : line :: rest = (line :: rest.take taken) ++ rest.drop taken := by
      rw [List.cons_append, List.take_append_drop]
    have ran : run state number (line.text :: texts rest) = _ := run_directive marked rfl
    rw [texts, List.map_cons, ← texts, ran, split]
    refine List.rel_append ?_ ?_
    · show List.Forall₂ _ (if directive = .foreign && state.active then
        keepFrom number (line.text :: joined.2.1) else []) _
      rw [takenTexts]
      by_cases owned : (directive = .foreign && state.active) = true
      · have keepsHere : here = line :: rest.take taken := dif_pos owned
        rw [if_pos owned, keepsHere]
        refine List.Forall₂.imp ?_ (keepFrom_comesFrom number (line :: rest.take taken))
        intro kept marked comes
        exact comes.within _
      · have losesHere : here = [] := dif_neg owned
        rw [if_neg owned, losesHere]
        exact .nil
    · rw [← size, ← remaining] at ih
      rw [← size]
      refine List.Forall₂.imp ?_ ih
      intro kept marked comes
      exact comes.after _
  | case3 state number line rest plain active text after expanded ih =>
    rw [texts, List.map_cons, run_code plain active, expanded]
    refine .cons ⟨rfl, Nat.le_refl number, by simp⟩ ?_
    refine List.Forall₂.imp ?_ ih
    intro kept marked comes
    exact ComesFrom.after [line] comes
  | case4 state number line rest plain inactive ih =>
    rw [texts, List.map_cons, run_skipped plain inactive]
    refine List.Forall₂.imp ?_ ih
    intro kept marked comes
    exact ComesFrom.after [line] comes

end Marks

theorem origin_bounds {state : State} {number : Nat} {lines : List (List Char)} {kept : KeptLine}
    (member : kept ∈ (run state number lines).1) :
    number ≤ kept.origin ∧ kept.origin < number + lines.length := by
  have comes := run_comesFrom state number (lines.map (Marked.mk ()))
  have same : texts (lines.map (Marked.mk ())) = lines := by
    rw [texts, List.map_map]
    exact List.map_id lines
  rw [same] at comes
  obtain ⟨index, inside, rfl⟩ := List.getElem_of_mem member
  have here := comes.get inside (comes.length_eq ▸ inside)
  exact ⟨here.le, by simpa using here.lt⟩

theorem errors_eq_nil_iff (text : List Char) :
    (outcomeOf text).errors = [] ↔
      (run .initial 1 (Text.lines text)).2.problems = [] ∧
        (run .initial 1 (Text.lines text)).2.groups = [] := by
  show Located.sortByLine _ = [] ↔ _
  rw [Located.sortByLine, ← List.length_eq_zero_iff, List.length_mergeSort,
    List.length_eq_zero_iff, List.append_eq_nil_iff, unterminated, List.map_eq_nil_iff,
    List.reverse_eq_nil_iff]

/-- A text of plain lines is kept as it is. -/
theorem outcome_of_isPlain {text : List Char} {lines : List (List Char)}
    (cut : Text.lines text = lines) (plain : ∀ line ∈ lines, IsPlain line) :
    (outcomeOf text).errors = [] ∧ (outcomeOf text).kept = keepFrom 1 lines := by
  have ran := run_of_isPlain plain 1
  constructor
  · rw [errors_eq_nil_iff, cut, ran]
    exact ⟨rfl, rfl⟩
  · show (run .initial 1 (Text.lines text)).1 = _
    rw [cut, ran]

end Multipass.Preprocess
