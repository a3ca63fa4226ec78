import Multipass.Proofs.Macro.Expansion
import Multipass.Proofs.Macro.Finished
import Multipass.Proofs.Macro.Levels
import Multipass.Proofs.Text.Occurrences

/-!
# The depth of an expansion

The bound on the depth of an expansion is meant for macros within macros. Where macros are in
layers, each above those that it leads to, a text goes no deeper than there are layers, however
many macros it uses. There is one exception: what follows a name that passes a call on is
expanded together with that call, so each such name on a line costs a level. These levels are
counted here, and as long as they are enough no macro is said to come back to itself.
-/

namespace Multipass.Macro

/-! ## Names in a body with its arguments -/

section Filling

variable {parameters arguments : List (List Char)}

/-- The names that a name of a body gives way to. -/
def namesFor (parameters arguments : List (List Char)) (name : List Char) : List (List Char) :=
  match argumentFor? parameters arguments name with
  | none => [name]
  | some argument => Text.names argument

theorem names_fill (c : Char) (rest : List Char) :
    Text.names (fill parameters arguments (Text.leadingLexeme c rest).1) =
      (Text.leadingLexeme c rest).1.name?.toList.flatMap (namesFor parameters arguments) := by
  have whole := Text.names_text_leadingLexeme c rest
  cases lexeme : (Text.leadingLexeme c rest).1 with
  | number text | gap text =>
    rw [lexeme] at whole
    exact whole
  | name text =>
    rw [lexeme] at whole
    simp only [fill, namesFor, Text.Lexeme.name?, Option.toList_some, List.flatMap_singleton]
    cases argumentFor? parameters arguments text with
    | none => exact whole
    | some argument => rfl

/-- No name comes up in a spaced body except those that its arguments have. -/
theorem names_filled_sublist {body : List Char} (spaced : Spaced body) :
    (Text.names (filled parameters arguments body)).Sublist
      ((Text.names body).flatMap (namesFor parameters arguments)) := by
  fun_induction Text.lexemes body with
  | case1 =>
    rw [filled_nil, Text.names_nil]
    exact List.Sublist.refl _
  | case2 c rest ih =>
    have begins : Begins _ (filled parameters arguments _) :=
      filled_begins (Text.leadingLexeme c rest).2
    have apart : Text.MeetApart (fill parameters arguments (Text.leadingLexeme c rest).1)
        (filled parameters arguments (Text.leadingLexeme c rest).2) := by
      rcases fill_cases (Text.leadingLexeme c rest).1 with stays | ⟨⟨name, isName⟩, -⟩
      · rw [stays]
        exact (spaced.seam begins).meetApart
      · exact (begins.seam (spaced.closed_of_name isName)).meetApart
    rw [filled_cons, Text.names_cons, List.flatMap_append, ← names_fill]
    exact (Text.names_append_sublist apart).trans ((List.Sublist.refl _).append (ih spaced.later))

end Filling

/-! ## Calls that are passed on -/

section Calls

variable {table : Table} {name text : List Char}

/-- The macro that takes the call behind a name, where the name stands for a text that ends in
    the name of that macro. -/
def Table.passesTo? (table : Table) (name : List Char) : Option (List Char) :=
  match table.find? name with
  | some ⟨none, body, _⟩ =>
    (expand table body).toOption.bind fun expansion => (trailingCallee? table expansion).map (·.2)
  | _ => none

theorem passesTo?_of_absent (absent : table.find? name = none) : table.passesTo? name = none := by
  rw [Table.passesTo?, absent]

/-- A macro with parameters takes its calls itself. -/
theorem passesTo?_of_parameters {parameters : List (List Char)} {body : List Char} {line : Nat}
    (found : table.find? name = some ⟨some parameters, body, line⟩) :
    table.passesTo? name = none := by
  rw [Table.passesTo?, found]

/-- How many names in a text pass calls on. -/
def Table.passes (table : Table) (text : List Char) : Nat :=
  (Text.names text).countP fun name => (table.passesTo? name).isSome

/-- Does a call behind a name belong to a macro? -/
def Table.takesCall (table : Table) (name : List Char) : Bool :=
  (table.passesTo? name).isSome || (table.find? name).any (·.parameters.isSome)

/-- No macro is named in the arguments of a call. -/
def Table.CallsPlainly (table : Table) (text : List Char) : Prop :=
  ∀ use ∈ Text.occurrences text, table.takesCall use.1 = true →
    ∀ call ∈ arguments? use.2, ∀ argument ∈ call.1, table.Ignores argument

instance (table : Table) (text : List Char) : Decidable (table.CallsPlainly text) :=
  inferInstanceAs (Decidable (∀ use ∈ Text.occurrences text, table.takesCall use.1 = true →
    ∀ call ∈ arguments? use.2, ∀ argument ∈ call.1,
      ∀ name ∈ Text.names argument, table.find? name = none))

/-- The texts that a name is replaced by: the body of a macro without parameters, or a body with
    arguments that name no macros. -/
inductive Table.Turns (table : Table) : List Char → List Char → Prop where
  | body {name body : List Char} {line : Nat} :
      table.find? name = some ⟨none, body, line⟩ → table.Turns name body
  | call {name body : List Char} {parameters arguments : List (List Char)} {line : Nat} :
      table.find? name = some ⟨some parameters, body, line⟩ →
        arguments.length = parameters.length →
          (∀ argument ∈ arguments, table.Ignores argument ∧ Spaced argument) →
            table.Turns name (substitute parameters arguments body)

/-- Macros in layers: a macro stands above all macros that its body names and above the one that
    it passes calls on to. In what macros turn into, calls are plain and few of them are passed
    on.

    Bodies with a macro in the arguments of a call are left out, though such calls are expanded
    too. An argument is expanded one level below its call, whatever the layers of the macros in
    it: `F(F(F(1)))` needs a level for each `F`, and all of them are in one layer. So the levels
    of such a text are not a matter of layers. What an argument becomes may also name a macro of
    any layer, one with parameters, and it takes its call in the body that the argument is put
    into. Bodies are spaced so that no name comes together that stands in none of them. -/
structure Table.IsLayered (table : Table) (rank : List Char → Nat) (height passed : Nat) :
    Prop where
  spaced : table.IsSpaced
  range : ∀ name definition, table.find? name = some definition →
    1 ≤ rank name ∧ rank name ≤ height
  named : ∀ name definition, table.find? name = some definition →
    ∀ inner ∈ Text.names definition.body, table.contains inner = true → rank inner < rank name
  callee : ∀ name callee, table.passesTo? name = some callee → rank callee < rank name
  plain : ∀ name text, table.Turns name text → table.CallsPlainly text
  few : ∀ name definition, table.find? name = some definition →
    table.passes definition.body ≤ passed

end Calls

/-! ## Levels -/

/-- The levels that a text needs, by the highest layer of its names and how many of them pass calls
    on: what follows such a name goes down a level with it. -/
def levelsFor (highest own passed : Nat) : Nat :=
  match highest with
  | 0 => 0
  | below + 1 => own + 1 + below * (passed + 1)

section Levels

variable {highest own inner passed : Nat}

theorem levelsFor_pos (positive : 1 ≤ highest) (own passed : Nat) :
    1 ≤ levelsFor highest own passed := by
  obtain ⟨below, rfl⟩ := Nat.exists_eq_add_of_le' positive
  simp only [levelsFor]
  omega

theorem levelsFor_mono (le : inner ≤ own) :
    levelsFor highest inner passed ≤ levelsFor highest own passed := by
  unfold levelsFor
  split
  · exact Nat.le_refl 0
  · omega

/-- What a macro turns into needs a level less. -/
theorem levelsFor_below {levels : Nat} (positive : 1 ≤ highest) (few : inner ≤ passed)
    (enough : levelsFor highest own passed ≤ levels + 1) :
    levelsFor (highest - 1) inner passed ≤ levels := by
  obtain ⟨below, rfl⟩ := Nat.exists_eq_add_of_le' positive
  cases below with
  | zero => exact Nat.zero_le levels
  | succ below =>
    have layer := Nat.add_mul below 1 (passed + 1)
    simp only [levelsFor, Nat.add_sub_cancel] at enough ⊢
    omega

/-- So does what follows a name that passes calls on. -/
theorem levelsFor_rest {levels : Nat} (positive : 1 ≤ highest)
    (enough : levelsFor highest (own + 1) passed ≤ levels + 1) :
    levelsFor highest own passed ≤ levels := by
  obtain ⟨below, rfl⟩ := Nat.exists_eq_add_of_le' positive
  simp only [levelsFor] at enough ⊢
  omega

end Levels

section Fitting

/-- Where each thing gives way to no more of a kind than it is, there are no more of the kind. -/
theorem countP_flatMap_le {α : Type} {p : α → Bool} {f : α → List α}
    (each : ∀ a, (f a).countP p ≤ [a].countP p) (list : List α) :
    (list.flatMap f).countP p ≤ list.countP p := by
  induction list with
  | nil => exact Nat.le_refl 0
  | cons first rest ih =>
    rw [List.flatMap_cons, List.countP_append, ← List.singleton_append, List.countP_append]
    exact Nat.add_le_add (each first) ih

variable {table : Table} {rank : List Char → Nat} {height highest passed : Nat} {text : List Char}

/-- A text whose names belong to the lower layers. -/
structure Table.Fits (table : Table) (rank : List Char → Nat) (highest : Nat) (text : List Char) :
    Prop where
  spaced : Spaced text
  plain : table.CallsPlainly text
  ranks : ∀ name ∈ Text.names text, table.contains name = true → rank name ≤ highest

/-- A later part of a text. -/
theorem Table.Fits.part {part : List Char} (fits : table.Fits rank highest text)
    (spaced : Spaced part) (later : Text.occurrences part <:+ Text.occurrences text) :
    table.Fits rank highest part ∧ table.passes part ≤ table.passes text := by
  have names : Text.names part <:+ Text.names text := by
    rw [← Text.map_fst_occurrences, ← Text.map_fst_occurrences]
    exact later.map _
  refine ⟨⟨spaced, fun use member => fits.plain use (later.subset member), fun name member =>
    fits.ranks name (names.subset member)⟩, names.sublist.countP_le⟩

theorem occurrences_later (c : Char) (rest : List Char) :
    Text.occurrences (Text.leadingLexeme c rest).2 <:+ Text.occurrences (c :: rest) := by
  rw [Text.occurrences]
  exact List.suffix_append _ _

theorem occurrences_afterCall {after : List Char} {written : List (List Char)}
    (reads : arguments? text = some (written, after)) :
    Text.occurrences after <:+ Text.occurrences text := by
  obtain ⟨blanks, -, rfl⟩ := eq_of_arguments? reads
  have outside : Text.isNumberChar ')' = false := rfl
  have whole := Text.occurrences_suffix outside (blanks ++ '(' :: Text.join ',' written) after
  simpa using whole

/-- A function that goes through texts that need no more than some levels without giving up at a
    macro. -/
def Handles (table : Table) (rank : List Char → Nat) (passed levels : Nat)
    (expand : List Char → Except ExpansionProblem (List Char)) : Prop :=
  ∀ text highest, table.Fits rank highest text →
    levelsFor highest (table.passes text) passed ≤ levels →
      ∀ name, expand text ≠ .error (.recursion name)

theorem mem_occurrences_of_isName {c : Char} {rest name : List Char}
    (isName : (Text.leadingLexeme c rest).1 = .name name) :
    (name, (Text.leadingLexeme c rest).2) ∈ Text.occurrences (c :: rest) := by
  rw [Text.occurrences, isName]
  exact List.mem_cons_self

theorem mem_names_of_isName {c : Char} {rest name : List Char}
    (isName : (Text.leadingLexeme c rest).1 = .name name) : name ∈ Text.names (c :: rest) := by
  rw [← Text.map_fst_occurrences]
  exact List.mem_map_of_mem (mem_occurrences_of_isName isName)

theorem callsPlainly_of_ignores (ignores : table.Ignores text) : table.CallsPlainly text := by
  intro use member takes
  have absent : table.find? use.1 = none :=
    ignores use.1 (Text.map_fst_occurrences text ▸ List.mem_map_of_mem member)
  simp [Table.takesCall, passesTo?_of_absent absent, absent] at takes

/-- A text that names no macro belongs to no layer. -/
theorem fits_of_ignores (ignores : table.Ignores text) (spaced : Spaced text) :
    table.Fits rank 0 text := by
  refine ⟨spaced, callsPlainly_of_ignores ignores, fun name member isMacro => ?_⟩
  rw [Table.contains, ignores name member] at isMacro
  cases isMacro

theorem contains_of_find? {name : List Char} {definition : Definition}
    (found : table.find? name = some definition) : table.contains name = true := by
  rw [Table.contains, found]
  rfl

/-- The arguments of a plain call name no macros. -/
theorem ignores_arguments {c : Char} {rest name body afterCall : List Char}
    {parameters written : List (List Char)} {line : Nat}
    (fits : table.Fits rank highest (c :: rest))
    (isName : (Text.leadingLexeme c rest).1 = .name name)
    (found : table.find? name = some ⟨some parameters, body, line⟩)
    (called : arguments? (Text.leadingLexeme c rest).2 = some (written, afterCall)) :
    ∀ argument ∈ callArguments parameters written,
      table.Ignores (Text.trim argument) ∧ Spaced (Text.trim argument) := by
  intro argument member
  have inWritten := callArguments_subset _ _ member
  have spaced := (fits.spaced.later.call called).1 argument inWritten
  refine ⟨?_, spaced.within (Text.trim_isInfix argument)⟩
  rw [Table.Ignores, Text.names_trim]
  exact fits.plain _ (mem_occurrences_of_isName isName)
    (by simp [Table.takesCall, found]) _ called argument inWritten

/-- Nor does what they are expanded to. -/
theorem ignores_values {expand : List Char → Except ExpansionProblem (List Char)}
    {arguments values : List (List Char)} (agrees : Extends (Macro.expand table) expand)
    (ignored : ∀ argument ∈ arguments,
      table.Ignores (Text.trim argument) ∧ Spaced (Text.trim argument))
    (expanded : arguments.mapM (fun argument => expand (Text.trim argument)) = .ok values) :
    ∀ value ∈ values, table.Ignores value ∧ Spaced value := by
  intro value member
  obtain ⟨argument, isArgument, gives⟩ := exists_of_mem_mapM expanded member
  have whole := agrees _ _ gives
  rw [expand_of_ignores (ignored argument isArgument).1] at whole
  cases whole
  exact ignored argument isArgument

section Layered

variable {name : List Char} {definition : Definition} (layered : table.IsLayered rank height passed)

include layered

theorem rank_bounds {c : Char} {rest : List Char} (fits : table.Fits rank highest (c :: rest))
    (isName : (Text.leadingLexeme c rest).1 = .name name)
    (found : table.find? name = some definition) : 1 ≤ rank name ∧ rank name ≤ highest :=
  ⟨(layered.range name definition found).1,
    fits.ranks name (mem_names_of_isName isName) (contains_of_find? found)⟩

/-- The body of a macro belongs to the layers below it. -/
theorem fits_body {body : List Char} {line : Nat}
    (found : table.find? name = some ⟨none, body, line⟩) (le : rank name ≤ highest) :
    table.Fits rank (highest - 1) body := by
  refine ⟨layered.spaced.body found, layered.plain name body (.body found), ?_⟩
  intro inner member isMacro
  have lower := layered.named name _ found inner member isMacro
  omega

/-- So does a body with arguments that name no macros. -/
theorem fits_call {parameters arguments : List (List Char)} {body : List Char} {line : Nat}
    (found : table.find? name = some ⟨some parameters, body, line⟩) (le : rank name ≤ highest)
    (length : arguments.length = parameters.length)
    (given : ∀ argument ∈ arguments, table.Ignores argument ∧ Spaced argument) :
    table.Fits rank (highest - 1) (substitute parameters arguments body) ∧
      table.passes (substitute parameters arguments body) ≤ table.passes body := by
  have bodySpaced : Spaced body := layered.spaced.body found
  have spaced : Spaced (substitute parameters arguments body) :=
    bodySpaced.substitute fun argument member => (given argument member).2
  have sub : (Text.names (substitute parameters arguments body)).Sublist
      ((Text.names body).flatMap (namesFor parameters arguments)) := by
    have filledSpaced : Spaced (filled parameters arguments body) :=
      bodySpaced.filled fun argument member => (given argument member).2
    rw [substitute_eq, filledSpaced.paste_eq]
    exact names_filled_sublist bodySpaced
  -- A name in the place of a parameter is that of no macro.
  have namesFor_cases : ∀ inner, namesFor parameters arguments inner = [inner] ∨
      ∀ other ∈ namesFor parameters arguments inner, table.find? other = none := by
    intro inner
    unfold namesFor
    cases replaced : argumentFor? parameters arguments inner with
    | none => exact .inl rfl
    | some argument => exact .inr (given argument (mem_of_argumentFor? replaced)).1
  refine ⟨⟨spaced, layered.plain name _ (.call found length given), ?_⟩, ?_⟩
  · intro inner member isMacro
    obtain ⟨source, inBody, from'⟩ := List.mem_flatMap.mp (sub.subset member)
    rcases namesFor_cases source with same | none
    · rw [same, List.mem_singleton] at from'
      have lower := layered.named name _ found inner (from' ▸ inBody) isMacro
      omega
    · rw [Table.contains, none inner from'] at isMacro
      cases isMacro
  · refine Nat.le_trans sub.countP_le (countP_flatMap_le (fun inner => ?_) _)
    rcases namesFor_cases inner with same | none
    · rw [same]
    · have passesNone : (namesFor parameters arguments inner).countP
          (fun name => (table.passesTo? name).isSome) = 0 :=
        List.countP_eq_zero.mpr fun other member => by
          simp [passesTo?_of_absent (none other member)]
      rw [passesNone]
      exact Nat.zero_le _

/-- What follows a name that passes calls on, behind the macro that takes the call. -/
theorem fits_passed {c : Char} {rest name callee : List Char}
    (fits : table.Fits rank highest (c :: rest))
    (isName : (Text.leadingLexeme c rest).1 = .name name) (le : rank name ≤ highest)
    {expansion front : List Char} (finished : Finished table expansion)
    (trailing : trailingCallee? table expansion = some (front, callee))
    (passesOn : table.passesTo? name = some callee) :
    table.Fits rank highest (callee ++ (Text.leadingLexeme c rest).2) ∧
      table.passes (callee ++ (Text.leadingLexeme c rest).2) + 1 = table.passes (c :: rest) := by
  have later := (fits.part fits.spaced.later (occurrences_later c rest)).1
  have boundary := Text.boundary_of_name isName
  obtain ⟨-, -, parameters, body, line, isMacro⟩ := trailingCallee?_cases trailing
  have spaced : Spaced (callee ++ (Text.leadingLexeme c rest).2) :=
    finished.call trailing fits.spaced.later (fits.spaced.closed_of_name isName)
  obtain ⟨-, -, d, others, rfl, start, inside⟩ := eq_of_trailingCallee? trailing
  have uses := Text.occurrences_name_append start inside boundary
  have names := Text.names_name_append start inside boundary
  refine ⟨⟨spaced, fun use member => ?_, fun inner member isMacro => ?_⟩, ?_⟩
  · rw [uses] at member
    rcases List.mem_cons.mp member with rfl | behind
    · exact fun _ => fits.plain (name, _) (mem_occurrences_of_isName isName)
        (by simp [Table.takesCall, passesOn])
    · exact later.plain use behind
  · rw [names] at member
    rcases List.mem_cons.mp member with rfl | behind
    · have lower := layered.callee name _ passesOn
      omega
    · exact later.ranks inner behind isMacro
  · unfold Table.passes
    rw [names, Text.names_cons, isName]
    simp [Text.Lexeme.name?, passesOn, passesTo?_of_parameters isMacro]

theorem scan_handles {deeper : Option (List Char → Except ExpansionProblem (List Char))}
    {levels : Nat} (bottom : deeper = none → levels = 0)
    (inner : ∀ expand ∈ deeper, ∃ below, levels = below + 1 ∧
      Handles table rank passed below expand ∧ Finishes table expand ∧
        Extends (Macro.expand table) expand) :
    Handles table rank passed levels (scan table deeper) := by
  intro text highest fits enough macroName failed
  fun_induction scan table deeper text with
  | case1 => cases failed
  | case2 first rest after _ text isNumber ih | case3 first rest after _ text isGap ih
  | case4 first rest after _ name isName absent ih =>
    obtain ⟨later, fewer⟩ := fits.part fits.spaced.later (occurrences_later first rest)
    exact ih later (Nat.le_trans (levelsFor_mono fewer) enough) (map_eq_error_iff.mp failed)
  | case5 first rest after name isName definition given found =>
    obtain ⟨positive, le⟩ := rank_bounds layered fits isName found
    have needs := levelsFor_pos (Nat.le_trans positive le) (table.passes (first :: rest)) passed
    have none := bottom given
    omega
  | case6 first rest after _ name isName body line expand given found ih =>
    subst given
    obtain ⟨below, rfl, handles, finishes, agrees⟩ := inner expand rfl
    obtain ⟨later, fewer⟩ := fits.part fits.spaced.later (occurrences_later first rest)
    obtain ⟨positive, le⟩ := rank_bounds layered fits isName found
    have goesOn := ih later (Nat.le_trans (levelsFor_mono fewer) enough)
    rcases bind_eq_error_iff.mp failed with ofBody | ⟨expansion, ofBody, failed⟩
    · refine handles body (highest - 1) (fits_body layered found le) ?_ macroName ofBody
      exact levelsFor_below (Nat.le_trans positive le) (layered.few name _ found) enough
    · split at failed
      · exact goesOn (map_eq_error_iff.mp failed)
      · rename_i front callee trailing
        split at failed
        · have passesOn : table.passesTo? name = some callee := by
            simp [Table.passesTo?, found, agrees _ _ ofBody, trailing, Except.toOption]
          have finished := finishes body expansion (layered.spaced.body found) ofBody
          obtain ⟨fitsRest, fewerRest⟩ :=
            fits_passed layered fits isName le finished trailing passesOn
          refine handles _ highest fitsRest ?_ macroName (map_eq_error_iff.mp failed)
          rw [← fewerRest] at enough
          exact levelsFor_rest (Nat.le_trans positive le) enough
        · exact goesOn (map_eq_error_iff.mp failed)
  | case7 first rest after _ name isName parameters body line expand given found called ih =>
    subst given
    obtain ⟨later, fewer⟩ := fits.part fits.spaced.later (occurrences_later first rest)
    exact ih later (Nat.le_trans (levelsFor_mono fewer) enough) (map_eq_error_iff.mp failed)
  | case8 first rest after _ name isName parameters body line expand given found written
      afterCall called _ arguments count ih =>
    subst given
    obtain ⟨below, rfl, handles, finishes, agrees⟩ := inner expand rfl
    obtain ⟨later, fewer⟩ := fits.part fits.spaced.later (occurrences_later first rest)
    obtain ⟨positive, le⟩ := rank_bounds layered fits isName found
    have ignored := ignores_arguments fits isName found called
    rcases bind_eq_error_iff.mp failed with ofArguments | ⟨values, ofArguments, failed⟩
    · obtain ⟨argument, member, fails⟩ := exists_of_mapM_eq_error ofArguments
      obtain ⟨ignores, spaced⟩ := ignored argument member
      exact handles _ 0 (fits_of_ignores ignores spaced) (Nat.zero_le _) macroName fails
    · have given := ignores_values agrees ignored ofArguments
      have length := (length_of_mapM_eq_ok ofArguments).trans count
      rcases bind_eq_error_iff.mp failed with ofBody | ⟨expansion, ofBody, failed⟩
      · obtain ⟨fitsBody, fewerBody⟩ := fits_call layered found le length given
        have few := Nat.le_trans fewerBody (layered.few name _ found)
        exact handles _ (highest - 1) fitsBody
          (levelsFor_below (Nat.le_trans positive le) few enough) macroName ofBody
      · have restSpaced := (later.spaced.call called).2.1
        obtain ⟨behind, fewerBehind⟩ := later.part restSpaced (occurrences_afterCall called)
        refine ih behind ?_ (map_eq_error_iff.mp failed)
        exact Nat.le_trans (levelsFor_mono (Nat.le_trans fewerBehind fewer)) enough
  | case9 => cases failed

theorem expandWithin_handles {levels : Nat} (le : levels ≤ expansionLimit) :
    Handles table rank passed levels (expandWithin table levels) := by
  induction levels with
  | zero => exact scan_handles layered (fun _ => rfl) fun expand absent => by cases absent
  | succ levels ih =>
    refine scan_handles layered (fun absent => by cases absent) ?_
    rintro expand ⟨⟩
    refine ⟨levels, rfl, ih (Nat.le_of_succ_le le), expandWithin_finishes layered.spaced levels, ?_⟩
    have more := @expandWithin_extends table levels (expansionLimit - levels)
    rwa [Nat.add_sub_of_le (Nat.le_of_succ_le le)] at more

/-- Where macros are in layers, the depth of an expansion does not depend on how many macros a text
    uses, except for those that pass calls on. -/
theorem expand_ne_recursion (spaced : Spaced text) (plain : table.CallsPlainly text)
    (enough : levelsFor height (table.passes text) passed ≤ expansionLimit) (name : List Char) :
    expand table text ≠ .error (.recursion name) := by
  refine expandWithin_handles layered (Nat.le_refl _) text height ⟨spaced, plain, ?_⟩ enough name
  intro inner _ isMacro
  obtain ⟨definition, found⟩ := Option.isSome_iff_exists.mp isMacro
  exact (layered.range inner definition found).2

end Layered

end Fitting

section Relays

/-! A macro that takes calls, and one that passes its calls on to it. -/

/-- `F(x)` gives its argument, and `G` gives the name `F`, which takes what stands behind. -/
def relays : Table :=
  ⟨[("F".toList, ⟨some ["x".toList], "x".toList, 1⟩), ("G".toList, ⟨none, "F".toList, 2⟩)]⟩

/-- Some calls that are passed on, one after the other. -/
def relayed (count : Nat) : List Char :=
  (List.replicate count "G(1) ".toList).flatten

private theorem relays_cases {name : List Char} {definition : Definition}
    (found : relays.find? name = some definition) :
    (name = "F".toList ∧ definition = ⟨some ["x".toList], "x".toList, 1⟩) ∨
      name = "G".toList ∧ definition = ⟨none, "F".toList, 2⟩ := by
  have member := Table.mem_of_find? found
  simpa [relays] using member

private theorem isLayered_relays {height : Nat} (high : 2 ≤ height) :
    relays.IsLayered (fun name => if name = "F".toList then 1 else 2) height 0 := by
  refine ⟨by decide, ?_, ?_, ?_, ?_, ?_⟩
  · intro name definition found
    rcases relays_cases found with ⟨rfl, rfl⟩ | ⟨rfl, rfl⟩
    · exact ⟨by decide, Nat.le_trans (by decide) high⟩
    · exact ⟨by decide, Nat.le_trans (by decide) high⟩
  · intro name definition found
    rcases relays_cases found with ⟨rfl, rfl⟩ | ⟨rfl, rfl⟩
    · decide +kernel
    · decide +kernel
  · intro name callee passesOn
    cases found : relays.find? name with
    | none =>
      rw [passesTo?_of_absent found] at passesOn
      cases passesOn
    | some definition =>
      rcases relays_cases found with ⟨rfl, rfl⟩ | ⟨rfl, rfl⟩
      · rw [passesTo?_of_parameters found] at passesOn
        cases passesOn
      · have taken : relays.passesTo? "G".toList = some "F".toList := by decide +kernel
        cases taken.symm.trans passesOn
        decide
  · intro name text turns
    cases turns with
    | body found =>
      rcases relays_cases found with ⟨-, same⟩ | ⟨-, same⟩
      · cases same
      · cases same
        decide +kernel
    | @call _ _ arguments _ found length given =>
      rcases relays_cases found with ⟨-, same⟩ | ⟨-, same⟩
      · cases same
        obtain ⟨argument, rfl⟩ := List.length_eq_one_iff.mp length
        obtain ⟨ignores, spaced⟩ := given argument List.mem_cons_self
        have replaced : filled ["x".toList] [argument] "x".toList = argument := by
          have lexemes : Text.lexemes "x".toList = [.name "x".toList] := by decide +kernel
          rw [filled, lexemes]
          simp [fill, argumentFor?]
        rw [substitute_eq, replaced, spaced.paste_eq]
        exact callsPlainly_of_ignores ignores
      · cases same
  · intro name definition found
    rcases relays_cases found with ⟨rfl, rfl⟩ | ⟨rfl, rfl⟩
    · decide +kernel
    · decide +kernel

/-- Sixty-two calls that are passed on have an expansion. -/
theorem expand_ne_recursion_relayed :
    relays.IsLayered (fun name => if name = "F".toList then 1 else 2) 2 0 ∧ Spaced (relayed 62) ∧
      relays.CallsPlainly (relayed 62) ∧
      levelsFor 2 (relays.passes (relayed 62)) 0 ≤ expansionLimit ∧
      expand relays (relayed 62) ≠ .error (.recursion "F".toList) := by
  have layered := isLayered_relays (Nat.le_refl 2)
  have spaced : Spaced (relayed 62) := by decide +kernel
  have plain : relays.CallsPlainly (relayed 62) := by decide +kernel
  have enough : levelsFor 2 (relays.passes (relayed 62)) 0 ≤ expansionLimit := by decide +kernel
  exact ⟨layered, spaced, plain, enough, expand_ne_recursion layered spaced plain enough _⟩

/-- The text behind each such call goes down a level with it. So a macro is reported to come back
    to itself when sixty-four calls are passed on to it on one line. -/
theorem not_expand_ne_recursion_relayed :
    ¬ ∀ (table : Table) (rank : List Char → Nat) (text name : List Char),
      table.IsLayered rank 8 0 → Spaced text → table.CallsPlainly text →
        expand table text ≠ .error (.recursion name) := by
  intro claim
  have failed : expand relays (relayed 64) = .error (.recursion "F".toList) := by decide +kernel
  exact claim relays _ (relayed 64) _ (isLayered_relays (by decide)) (by decide +kernel)
    (by decide +kernel) failed

end Relays

end Multipass.Macro
