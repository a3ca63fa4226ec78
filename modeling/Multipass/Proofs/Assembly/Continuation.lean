import Multipass.Proofs.Assembly.Sources
import Multipass.Proofs.Preprocess.KeptLines

/-!
# Directives at the end of Common

A directive goes on into the next line while its text ends in a backslash, blanks aside. At the
end of Common it finds the empty line in front of the pass, and no line of the pass. It takes the
empty line exactly if the backslash is still there when the end of Common has been cut off.
-/

namespace Multipass.Preprocess

namespace Directive

/-- Only at the end of the lines a directive's text ends in a backslash. -/
theorem joinContinuations_of_backslash {text joined : List Char}
    {following taken remaining : List (List Char)}
    (joins : joinContinuations text following = (joined, taken, remaining))
    (backslash : joined.getLast? = some '\\') : taken = following ∧ remaining = [] := by
  have none : remaining = [] := by
    by_contra more
    exact (joinContinuations_taken joins more).2 backslash
  have whole := joinContinuations_append text following
  rw [joins, none, List.append_nil] at whole
  exact ⟨whole, none⟩

/-- What the lines of a directive make when an empty line and others follow. -/
theorem joinContinuations_seam {text joined : List Char} {front taken remaining : List (List Char)}
    (joins : joinContinuations text front = (joined, taken, remaining)) (back : List (List Char)) :
    joinContinuations text (front ++ [] :: back) =
      if joined.getLast? = some '\\' then (joined.dropLast ++ [' '], taken ++ [[]], back)
      else (joined, taken, remaining ++ [] :: back) := by
  split
  · rename_i backslash
    obtain ⟨rfl, rfl⟩ := joinContinuations_of_backslash joins backslash
    have continues : goesOn (joinContinuations text taken) = true := by
      rw [joins]
      simp [goesOn, backslash]
    rw [joinContinuations_of_goesOn continues, joins]
  · rename_i ended
    have stops : goesOn (joinContinuations text front) = false := by
      rw [joins]
      simp [goesOn, ended]
    rw [joinContinuations_of_ended stops, joins]

end Directive

section Reads

variable {start state : State} {first number : Nat} {lines front back rest taken : List (List Char)}
  {line joined : List Char}

theorem reaches_append_iff (inFront : number < first + front.length) :
    Reaches start first (front ++ back) state number line rest ↔
      ∃ later, rest = later ++ back ∧ Reaches start first front state number line later := by
  constructor
  · rintro ⟨before, split, rfl, closed, reached⟩
    rcases List.append_eq_append_iff.mp split with ⟨between, rfl, -⟩ | ⟨between, rfl, here⟩
    · rw [List.length_append] at inFront
      omega
    · cases between with
      | nil => simp at inFront
      | cons line' later =>
        obtain ⟨rfl, rfl⟩ := List.cons.inj here
        exact ⟨later, rfl, before, rfl, rfl, closed, reached⟩
  · rintro ⟨later, rfl, before, rfl, rfl, closed, reached⟩
    exact ⟨before, by simp, rfl, closed, reached⟩

/-- A directive that a run reads: the number of its first line, the text that its lines make, and
the lines that it takes in behind the first. -/
def ReadsDirective (start : State) (first : Nat) (lines : List (List Char)) (number : Nat)
    (joined : List Char) (taken : List (List Char)) : Prop :=
  ∃ state line rest remaining, Reaches start first lines state number line rest ∧
    (!state.insideComment && Directive.isDirectiveLine line) = true ∧
    Directive.joinContinuations (Text.trim line) rest = (joined, taken, remaining)

theorem ReadsDirective.bounds (reads : ReadsDirective start first lines number joined taken) :
    first ≤ number ∧ number + taken.length < first + lines.length := by
  obtain ⟨state, line, rest, remaining, ⟨before, rfl, rfl, -, -⟩, -, joins⟩ := reads
  have whole := congrArg List.length (Directive.joinContinuations_append (Text.trim line) rest)
  rw [joins, List.length_append] at whole
  rw [List.length_append, List.length_cons]
  dsimp only at whole
  omega

/-- A directive whose text ends in a backslash takes in all lines that are left. -/
theorem ReadsDirective.last (reads : ReadsDirective start first lines number joined taken)
    (backslash : joined.getLast? = some '\\') : number + taken.length + 1 = first + lines.length := by
  obtain ⟨state, line, rest, remaining, ⟨before, rfl, rfl, -, -⟩, -, joins⟩ := reads
  obtain ⟨rfl, -⟩ := Directive.joinContinuations_of_backslash joins backslash
  rw [List.length_append, List.length_cons]
  omega

/-- With an empty line and others behind it, a directive is read as before, unless its text ends
in a backslash; then it takes in the empty line and ends there. -/
theorem readsDirective_seam_iff (inFront : number < first + front.length) :
    ReadsDirective start first (front ++ [] :: back) number joined taken ↔
      ∃ text following, ReadsDirective start first front number text following ∧
        if text.getLast? = some '\\' then joined = text.dropLast ++ [' '] ∧ taken = following ++ [[]]
        else joined = text ∧ taken = following := by
  constructor
  · rintro ⟨state, line, rest, remaining, reaches, marked, joins⟩
    obtain ⟨later, rfl, reachesFront⟩ := (reaches_append_iff inFront).mp reaches
    refine ⟨_, _, ⟨state, line, later, _, reachesFront, marked, rfl⟩, ?_⟩
    rw [Directive.joinContinuations_seam rfl] at joins
    split <;> simp_all
  · rintro ⟨text, following, ⟨state, line, later, remaining, reaches, marked, joins⟩, same⟩
    refine ⟨state, line, later ++ [] :: back,
      if text.getLast? = some '\\' then back else remaining ++ [] :: back,
      (reaches_append_iff inFront).mpr ⟨later, rfl, reaches⟩, marked, ?_⟩
    rw [Directive.joinContinuations_seam joins]
    split <;> simp_all

theorem ReadsDirective.after (closed : endsOpen start first front = false)
    (reads : ReadsDirective (run start first front).2 (first + front.length) back number joined
      taken) : ReadsDirective start first (front ++ back) number joined taken := by
  obtain ⟨state, line, rest, remaining, reaches, marked, joins⟩ := reads
  exact ⟨state, line, rest, remaining, reaches.after closed, marked, joins⟩

/-- A run ends inside a directive only if it reads one whose text ends in a backslash. -/
theorem exists_readsDirective_of_endsOpen (opens : endsOpen start first lines = true) :
    ∃ number joined taken, ReadsDirective start first lines number joined taken ∧
      joined.getLast? = some '\\' := by
  fun_induction run start first lines with
  | case1 => simp [endsOpen] at opens
  | case2 state number line rest marked joined _ directive here later final ran ih =>
    rw [endsOpen, if_pos marked] at opens
    rcases (Bool.or_eq_true _ _).mp opens with continues | opens
    · obtain ⟨-, backslash⟩ := (Bool.and_eq_true _ _).mp continues
      exact ⟨number, joined.1, joined.2.1,
        ⟨state, line, rest, joined.2.2, reaches_first state number line rest, marked, rfl⟩,
        beq_iff_eq.mp backslash⟩
    · have more : joined.2.2 ≠ [] := by
        intro nothing
        rw [nothing, endsOpen] at opens
        exact Bool.false_ne_true opens
      have whole : joined.2.1 ++ joined.2.2 = rest := Directive.joinContinuations_append _ _
      obtain ⟨closed, goesOn⟩ := @run_directive_alone state number rest line marked joined rfl more
      obtain ⟨number', text, taken, reads, backslash⟩ := ih opens
      rw [← goesOn, Nat.add_assoc, Nat.add_comm 1] at reads
      rw [← whole, ← List.cons_append]
      exact ⟨number', text, taken, reads.after closed, backslash⟩
  | case3 state number line rest plain active text after code later final ran ih =>
    rw [endsOpen, if_neg plain, if_pos active, code] at opens
    obtain ⟨closed, goesOn⟩ := @run_code_alone state number line plain active
    obtain ⟨number', text, taken, reads, backslash⟩ := ih opens
    simp only [code] at goesOn
    rw [← goesOn] at reads
    exact ⟨number', text, taken, reads.after closed, backslash⟩
  | case4 state number line rest plain inactive ih =>
    rw [endsOpen, if_neg plain, if_neg inactive] at opens
    obtain ⟨closed, goesOn⟩ := @run_skipped_alone state number line plain inactive
    obtain ⟨number', text, taken, reads, backslash⟩ := ih opens
    rw [← goesOn] at reads
    exact ⟨number', text, taken, reads.after closed, backslash⟩

end Reads

end Multipass.Preprocess

namespace Multipass.Assembly

open Preprocess

variable {common code : List Char}

/-- The directives of Common are read as in Common alone, and the empty line behind it on its
own. -/
structure StaysInCommon (common code : List Char) : Prop where
  inside : ∀ number joined taken,
    ReadsDirective .initial 1 (Text.lines (combine common code).text) number joined taken →
    number ≤ (combine common code).commonLines →
    number + taken.length ≤ (combine common code).commonLines
  same : ∀ number joined taken, number ≤ (combine common code).commonLines →
    (ReadsDirective .initial 1 (Text.lines (combine common code).text) number joined taken ↔
      ReadsDirective .initial 1 (Text.lines (dropContinuation common)) number joined taken)
  separated : 0 < (combine common code).commonLines →
    ∃ state, Reaches .initial 1 (Text.lines (combine common code).text) state
      ((combine common code).commonLines + 1) [] (Text.lines code)

theorem not_readsDirective_of_blank {text joined : List Char} {number : Nat}
    {taken : List (List Char)} (blank : Text.isAllBlank text = true) :
    ¬ ReadsDirective .initial 1 (Text.lines text) number joined taken := by
  rintro ⟨state, line, rest, remaining, ⟨before, split, -, -, -⟩, marked, -⟩
  have member : line ∈ Text.lines text := split ▸ by simp
  have nothing : Text.trimStart line = [] :=
    List.dropWhile_eq_nil_iff.mpr fun c inLine =>
      List.all_eq_true.mp blank c (Text.lines_subset member inLine)
  simp [Directive.isDirectiveLine, nothing] at marked

/-- Where no directive of Common goes on, the directives of both texts are the same. -/
theorem staysInCommon_of_ended (visible : Text.isAllBlank (dropContinuation common) = false)
    (ended : ∀ number joined taken,
      ReadsDirective .initial 1 (Text.lines (dropContinuation common)) number joined taken →
      joined.getLast? ≠ some '\\') : StaysInCommon common code := by
  have same {number : Nat} {joined : List Char} {taken : List (List Char)}
      (le : number ≤ (Text.lines (dropContinuation common)).length) :
      ReadsDirective .initial 1 (Text.lines (dropContinuation common) ++ [] :: Text.lines code)
        number joined taken ↔
      ReadsDirective .initial 1 (Text.lines (dropContinuation common)) number joined taken := by
    rw [readsDirective_seam_iff (by omega)]
    constructor
    · rintro ⟨text, following, reads, same⟩
      rw [if_neg (ended _ _ _ reads)] at same
      obtain ⟨rfl, rfl⟩ := same
      exact reads
    · intro reads
      refine ⟨joined, taken, reads, ?_⟩
      rw [if_neg (ended _ _ _ reads)]
      exact ⟨rfl, rfl⟩
  constructor
  · intro number joined taken reads le
    rw [lines_combined visible] at reads
    rw [commonLines_of_visible visible] at le ⊢
    have bounds := ((same le).mp reads).bounds
    omega
  · intro number joined taken le
    rw [commonLines_of_visible visible] at le
    rw [lines_combined visible, same le]
  · intro _
    have closed : endsOpen .initial 1 (Text.lines (dropContinuation common)) = false := by
      refine Bool.eq_false_iff.mpr fun opens => ?_
      obtain ⟨number, joined, taken, reads, backslash⟩ := exists_readsDirective_of_endsOpen opens
      exact ended number joined taken reads backslash
    rw [lines_combined visible, commonLines_of_visible visible]
    exact ⟨_, _, rfl, Nat.add_comm _ _, closed, rfl⟩

/-- No directive of Common takes in a line of the pass. It takes in the empty line between the two
exactly if its text in Common alone ends in a backslash. -/
theorem staysInCommon_iff (common code : List Char) :
    (∀ number joined taken,
      ReadsDirective .initial 1 (Text.lines (combine common code).text) number joined taken →
      number ≤ (combine common code).commonLines →
      number + taken.length ≤ (combine common code).commonLines + 1) ∧
    (StaysInCommon common code ↔ ∀ number joined taken,
      ReadsDirective .initial 1 (Text.lines (dropContinuation common)) number joined taken →
      joined.getLast? ≠ some '\\') := by
  by_cases blank : Text.isAllBlank (dropContinuation common) = true
  · have positive {number : Nat} {joined : List Char} {taken : List (List Char)}
        (reads : ReadsDirective .initial 1 (Text.lines (combine common code).text) number joined taken) :
        ¬ number ≤ (combine common code).commonLines := by
      rw [combine_of_blank blank]
      exact Nat.not_le_of_lt reads.bounds.1
    refine ⟨fun number joined taken reads le => absurd le (positive reads), ?_⟩
    refine iff_of_true ⟨fun number joined taken reads le => absurd le (positive reads), ?_, ?_⟩
      fun number joined taken reads => absurd reads (not_readsDirective_of_blank blank)
    · intro number joined taken le
      exact iff_of_false (fun reads => positive reads le) (not_readsDirective_of_blank blank)
    · rw [combine_of_blank blank]
      exact fun positive => absurd positive (Nat.lt_irrefl 0)
  · have visible := Bool.not_eq_true _ ▸ blank
    refine ⟨fun number joined taken reads le => ?_, fun stays number joined taken reads backslash => ?_,
      staysInCommon_of_ended visible⟩
    · rw [commonLines_of_visible visible] at le ⊢
      rw [lines_combined visible] at reads
      obtain ⟨text, following, reads, same⟩ := (readsDirective_seam_iff (by omega)).mp reads
      have bounds := reads.bounds
      split at same
      · rw [same.2, List.length_append, List.length_singleton]
        omega
      · rw [same.2]
        omega
    · have bounds := reads.bounds
      have last := reads.last backslash
      have inFront : number ≤ (combine common code).commonLines := by
        rw [commonLines_of_visible visible]
        omega
      have takesSeparator : ReadsDirective .initial 1 (Text.lines (combine common code).text) number
          (joined.dropLast ++ [' ']) (taken ++ [[]]) := by
        rw [lines_combined visible]
        refine (readsDirective_seam_iff (by omega)).mpr ⟨joined, taken, reads, ?_⟩
        rw [if_pos backslash]
        exact ⟨rfl, rfl⟩
      have inside := stays.inside _ _ _ takesSeparator inFront
      rw [commonLines_of_visible visible, List.length_append, List.length_singleton] at inside
      omega

/-- A carriage return hides the backslash from the cut, and not from the run: the directive takes
the empty line. -/
theorem not_staysInCommon_carriageReturn :
    ¬ StaysInCommon "#undef A \\\r".toList "float a;".toList := by
  intro stays
  have reads : ReadsDirective .initial 1
      (Text.lines (combine "#undef A \\\r".toList "float a;".toList).text) 1 "#undef A  ".toList
      [[]] :=
    ⟨.initial, "#undef A \\\r".toList, [[], "float a;".toList], ["float a;".toList],
      reaches_first .initial 1 _ _, by decide, by decide⟩
  have inside := stays.inside 1 _ _ reads (by decide)
  exact absurd inside (by decide)

end Multipass.Assembly
