import Multipass.Proofs.Macro.Pasting
import Multipass.Proofs.Preprocess.KeptLines
import Multipass.Proofs.Preprocess.Recursion

/-!
# Joined parts in a text

Where the macros of a text join parts in calls only and its code has no signs of its own, none
is left in the code of the output. A macro without parameters leaves its joints where they are.
-/

namespace Multipass.Preprocess

/-- The definition of a macro that is in force was met. -/
theorem exists_definition_of_find? {events : List (Located Event)} {name : List Char}
    {definition : Macro.Definition}
    (found : (stateAfter events).table.find? name = some definition) :
    ∃ event ∈ events, ∃ rest, event.content = .directive (.define rest) ∧
      parseDefinition rest event.line = .ok (name, definition) := by
  induction events using List.reverseRecOn with
  | nil => cases found
  | append_singleton events event ih =>
    rw [stateAfter_concat] at found
    rcases find?_after found with ⟨-, rest, content, parsed⟩ | ⟨older, -, -⟩
    · exact ⟨event, by simp, rest, content, parsed⟩
    · obtain ⟨met, member, defines⟩ := ih older
      exact ⟨met, List.mem_append_left _ member, defines⟩

/-- A line of code of a text, and the state in which a run comes to it. -/
def IsCodeOf (text : List Char) (state : State) (number : Nat) (line : List Char) : Prop :=
  ∃ front back, eventsOf text = front ++ ⟨number, .code line⟩ :: back ∧ stateAfter front = state

theorem isCodeOf_of_isCode {text line : List Char} {state : State} {number : Nat}
    (isCode : IsCode .initial 1 (Text.lines text) state number line) :
    IsCodeOf text state number line := by
  obtain ⟨⟨rest, front, cut, rfl, closed, rfl⟩, plain, active⟩ := isCode
  have met : eventsOf text = _ := (congrArg (events .initial 1) cut).trans
    (events_append_of_closed closed (line :: rest))
  rw [events_code (by rw [plain]; exact Bool.false_ne_true) active] at met
  exact ⟨events .initial 1 front, _, met, (run_snd _ _ _).symm⟩

/-- Has the code of a line no signs? -/
def HasNoSigns (inside : Bool) (line : List Char) : Prop :=
  ∀ code, .code code ∈ (Comment.segments inside line).1 → '#' ∉ code

/-- Do the macros of a text join parts in calls only, and has its code no signs of its own? -/
structure JoinsInCalls (text : List Char) : Prop where
  definitions : ∀ event ∈ eventsOf text, ∀ rest name definition,
    event.content = .directive (.define rest) →
      parseDefinition rest event.line = .ok (name, definition) → definition.JoinsInCalls
  code : ∀ state number line, IsCodeOf text state number line → HasNoSigns state.insideComment line

theorem JoinsInCalls.table {text line : List Char} {state : State} {number : Nat}
    (joins : JoinsInCalls text) (isCode : IsCodeOf text state number line) :
    state.table.JoinsInCalls := by
  obtain ⟨front, back, cut, rfl⟩ := isCode
  intro name definition found
  obtain ⟨event, member, rest, content, parsed⟩ := exists_definition_of_find? found
  exact joins.definitions event (cut ▸ List.mem_append_left _ member) rest name definition content
    parsed

/-- The expansion of a line of code, with no signs outside of its comments. -/
structure IsJoined (text : List Char) (state : State) (line : List Char) (kept : KeptLine) :
    Prop where
  isCode : IsCodeOf text state kept.origin line
  expansion : kept.text = expandedText state.table state.insideComment line
  noSigns : ∀ code, .code code ∈ (Comment.segments state.insideComment line).1 →
    '#' ∉ expandedSegment state.table (.code code)

/-- Where parts are joined in calls only, what is kept are lines for the compiler and lines of
    code without signs, and a call becomes the parts of the body, with their arguments and put
    together, which are expanded in their turn. -/
theorem kept_of_joinsInCalls {text : List Char} (joins : JoinsInCalls text) :
    (∀ kept ∈ (outcomeOf text).kept, IsPassed .initial 1 (Text.lines text) kept ∨
      ∃ state line, IsJoined text state line kept) ∧
    ∀ state number line, IsCodeOf text state number line →
      ∀ levels call parameters body values afterCall, '#' ∉ call →
        state.table.Calls levels call parameters body values afterCall →
          state.table.BecomesParts levels call parameters body values afterCall := by
  refine ⟨fun kept member => ?_, fun state number line isCode levels call parameters body values
    afterCall absent calls => Macro.expandWithin_of_calls (joins.table isCode) absent calls⟩
  rcases mem_run_iff.mp member with passed | isCode
  · exact .inl passed
  · rename_i state number line
    have isCodeOf := isCodeOf_of_isCode isCode
    refine .inr ⟨state, line, isCodeOf, rfl, fun code ofLine => ?_⟩
    have absent : '#' ∉ code := joins.code state number line isCodeOf code ofLine
    rw [expandedSegment]
    split
    · rename_i expansion expands
      exact Macro.expandWithin_keeps (joins.table isCodeOf).keepsOut _ code expansion absent expands
    · exact absent

/-- Two names that are joined, and a macro that has the new name. -/
def joinedText : List Char := "#define CAT(a, b) a ## b\n#define xy 7\nCAT(x, y) /* # */;".toList

/-- The definitions of `joinedText`. -/
def joinedDefinitions : List (Located Event) :=
  [⟨1, .directive (.define "CAT(a, b) a ## b".toList)⟩, ⟨2, .directive (.define "xy 7".toList)⟩]

theorem eventsOf_joinedText :
    eventsOf joinedText = joinedDefinitions ++ [⟨3, .code "CAT(x, y) /* # */;".toList⟩] := by
  decide +kernel

theorem joinsInCalls_joinedText : JoinsInCalls joinedText := by
  have call : parseDefinition "CAT(a, b) a ## b".toList 1 =
      .ok (['C', 'A', 'T'], ⟨some [['a'], ['b']], "a ## b".toList, 1⟩) := by decide +kernel
  have name : parseDefinition "xy 7".toList 2 = .ok (['x', 'y'], ⟨none, ['7'], 2⟩) := by
    decide +kernel
  constructor
  · intro event member rest found definition content parsed
    rw [eventsOf_joinedText] at member
    rcases List.mem_cons.mp member with rfl | member
    · cases content
      cases call.symm.trans parsed
      exact ⟨['a', ' '], [[' ', 'b']], by decide, rfl⟩
    · rcases List.mem_cons.mp member with rfl | member
      · cases content
        cases name.symm.trans parsed
        show '#' ∉ ['7']
        decide
      · cases List.mem_singleton.mp member
        cases content
  · rintro state number line ⟨front, back, cut, rfl⟩
    rw [eventsOf_joinedText] at cut
    rcases front with _ | ⟨first, _ | ⟨second, _ | ⟨third, more⟩⟩⟩
    · cases cut
    · cases cut
    · cases cut
      have segments : (Comment.segments false "CAT(x, y) /* # */;".toList).1 =
          [.code "CAT(x, y) ".toList, .comment "/*".toList, .comment " # */".toList,
            .code [';']] := by decide +kernel
      intro code member
      rw [show (stateAfter _).insideComment = false by decide +kernel, segments] at member
      rcases List.mem_cons.mp member with same | member
      · cases same
        decide +kernel
      · obtain rfl : code = [';'] := by simpa using member
        decide
    · simp [joinedDefinitions] at cut

theorem kept_of_joinsInCalls_name :
    JoinsInCalls joinedText ∧ (outcomeOf joinedText).kept = [⟨3, "7 /* # */;".toList⟩] ∧
      (∀ kept ∈ (outcomeOf joinedText).kept, IsPassed .initial 1 (Text.lines joinedText) kept ∨
        ∃ state line, IsJoined joinedText state line kept) ∧
      IsCodeOf joinedText (stateAfter joinedDefinitions) 3 "CAT(x, y) /* # */;".toList ∧
        (stateAfter joinedDefinitions).table.Calls 1 "CAT(x, y) ".toList [['a'], ['b']]
          "a ## b".toList [['x'], ['y']] [' '] ∧
        (stateAfter joinedDefinitions).table.BecomesParts 1 "CAT(x, y) ".toList [['a'], ['b']]
          "a ## b".toList [['x'], ['y']] [' '] := by
  obtain ⟨joined, becomes⟩ := kept_of_joinsInCalls joinsInCalls_joinedText
  have isCode : IsCodeOf joinedText (stateAfter joinedDefinitions) 3 "CAT(x, y) /* # */;".toList :=
    ⟨joinedDefinitions, [], eventsOf_joinedText, rfl⟩
  have begins : Text.leadingLexeme 'C' "AT(x, y) ".toList =
      (.name ['C', 'A', 'T'], "(x, y) ".toList) := by decide +kernel
  have found : (stateAfter joinedDefinitions).table.find? ['C', 'A', 'T'] =
      some ⟨some [['a'], ['b']], "a ## b".toList, 1⟩ := by decide +kernel
  have called : Macro.arguments? "(x, y) ".toList = some ([['x'], [' ', 'y']], [' ']) := by
    decide +kernel
  have ofArguments : (Macro.callArguments [['a'], ['b']] [['x'], [' ', 'y']]).mapM
      (fun argument => Macro.expandWithin (stateAfter joinedDefinitions).table 1
        (Text.trim argument)) = .ok [['x'], ['y']] := by decide +kernel
  have calls := Macro.Table.Calls.intro begins found called rfl ofArguments
  exact ⟨joinsInCalls_joinedText, by decide +kernel, joined, isCode, calls,
    becomes _ _ _ isCode _ _ _ _ _ _ (by decide +kernel) calls⟩

/-- A joint stays in the expansion of a macro without parameters, though the macro is the only
    one and joins nothing but names. -/
theorem not_joined_without_parameters :
    ¬ ∀ text, (outcomeOf text).errors = [] →
      (∀ event ∈ eventsOf text,
        (∃ rest name definition, event.content = .directive (.define rest) ∧
          parseDefinition rest event.line = .ok (name, definition) ∧
          ∃ first others, definition.body = Macro.glued first others ∧
            ∀ part ∈ first :: others, Text.isName (Text.trim part) = true) ∨
        ∃ line, event.content = .code line ∧ '#' ∉ line) →
      ∀ kept ∈ (outcomeOf text).kept, ¬ ['#', '#'] <:+: kept.text := by
  intro claim
  have met : eventsOf "#define AB a ## b\nint AB;".toList =
      [⟨1, .directive (.define "AB a ## b".toList)⟩, ⟨2, .code "int AB;".toList⟩] := by
    decide +kernel
  have parsed : parseDefinition "AB a ## b".toList 1 =
      .ok (['A', 'B'], ⟨none, "a ## b".toList, 1⟩) := by decide +kernel
  have kept : (⟨2, "int a ## b;".toList⟩ : KeptLine) ∈
      (outcomeOf "#define AB a ## b\nint AB;".toList).kept := by decide +kernel
  refine claim _ (by decide +kernel) (fun event member => ?_) _ kept (by decide +kernel)
  rw [met] at member
  rcases List.mem_cons.mp member with rfl | member
  · exact .inl ⟨_, _, _, rfl, parsed, ['a', ' '], [[' ', 'b']], rfl, by decide +kernel⟩
  · cases List.mem_singleton.mp member
    exact .inr ⟨_, rfl, by decide +kernel⟩

end Multipass.Preprocess
