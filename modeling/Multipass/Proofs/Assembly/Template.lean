import Multipass.Proofs.Assembly.Header
import Multipass.Proofs.Text.Lines
import Multipass.Proofs.Text.Search

/-!
# The scaffold as a template

The scaffold is written down as one text with two placeholders in braces. The precision
statements replace the one, and the text is cut at the other to make room for the code.
Neither placeholder occurs anywhere else in the scaffold, nor in a precision statement, and
the code is never searched.
-/

namespace Multipass

namespace Text

/-- Every occurrence of a needle replaced, from the left. -/
def replaceAll (needle : List Char) (nonempty : needle ≠ []) (replacement text : List Char) :
    List Char :=
  match _ : breakAt? needle text with
  | none => text
  | some (front, rest) => front ++ replacement ++ replaceAll needle nonempty replacement rest
  termination_by text.length
  decreasing_by exact length_lt_of_breakAt? nonempty ‹_›

variable {needle replacement text front rest : List Char} {nonempty : needle ≠ []}

theorem replaceAll_of_found (found : breakAt? needle text = some (front, rest)) :
    replaceAll needle nonempty replacement text =
      front ++ replacement ++ replaceAll needle nonempty replacement rest := by
  rw [replaceAll]
  split
  · rename_i missing
    rw [found] at missing
    cases missing
  · rename_i found'
    rw [found] at found'
    cases found'
    rfl

theorem replaceAll_of_missing (missing : breakAt? needle text = none) :
    replaceAll needle nonempty replacement text = text := by
  rw [replaceAll]
  split
  · rfl
  · rename_i found
    rw [missing] at found
    cases found

end Text

namespace Scaffold

open Text

/-- What the template has in place of the precision statements. -/
def precisionPlace : List Char :=
  "\x7b\x7bPRECISION\x7d\x7d".toList

/-- What the template has in place of the user's code. -/
def codePlace : List Char :=
  "\x7b\x7bUSER_CODE\x7d\x7d".toList

theorem precisionPlace_ne_nil : precisionPlace ≠ [] := by decide

theorem codePlace_ne_nil : codePlace ≠ [] := by decide

/-- The lines after the line with the code. -/
def closing : List (List Char) :=
  ["", "void main() \x7b", "    mainImage(fragColor, gl_FragCoord.xy);", "\x7d"].map String.toList

/-- The scaffold of all passes, with its placeholders. -/
def template : List Char :=
  unlines ("#version 450".toList :: precisionPlace :: declarations.map String.toList ++
    codePlace :: closing ++ [[]])

/-- The template with precision statements and code in the places of its placeholders. -/
def fill (precisions : List Precision) (code : List Char) : List Char :=
  let scaffold := replaceAll precisionPlace precisionPlace_ne_nil
    (unlines (precisions.map Precision.statement)) template
  let parts := (breakAt? codePlace scaffold).getD (scaffold, [])
  parts.1 ++ code ++ parts.2

/-! ## Lines without placeholders -/

/-- In a line like this no placeholder begins: no brace follows on a brace. -/
def Unbraced (line : List Char) : Prop :=
  line.IsChain fun c d => ¬ (c = '\x7b' ∧ d = '\x7b')

instance (line : List Char) : Decidable (Unbraced line) :=
  inferInstanceAs (Decidable (List.IsChain _ _))

theorem unbraced_of_notMem {line : List Char} (noBrace : '\x7b' ∉ line) : Unbraced line := by
  refine List.Pairwise.isChain (List.Pairwise.imp_of_mem ?_
    (List.pairwise_of_forall fun _ _ => trivial))
  rintro c d member - - ⟨rfl, -⟩
  exact noBrace member

/-- A placeholder is not found in a line and is looked for behind it. -/
theorem breakAt?_line (name : List Char) {line : List Char} (unbraced : Unbraced line)
    (text : List Char) :
    breakAt? ('\x7b' :: '\x7b' :: name) (line ++ '\n' :: text) =
      (breakAt? ('\x7b' :: '\x7b' :: name) text).map
        fun parts => (line ++ '\n' :: parts.1, parts.2) := by
  induction line with
  | nil => exact breakAt?_cons_of_none rfl
  | cons c rest ih =>
    have missing : after? ('\x7b' :: '\x7b' :: name) (c :: (rest ++ '\n' :: text)) = none := by
      by_cases brace : c = '\x7b'
      · rw [after?, if_pos brace]
        cases rest with
        | nil => rfl
        | cons d others =>
          have other := (List.isChain_cons_cons.mp unbraced).1
          rw [List.cons_append, after?, if_neg fun same => other ⟨brace, same⟩]
      · rw [after?, if_neg brace]
    rw [List.cons_append, breakAt?_cons_of_none missing, ih unbraced.of_cons, Option.map_map]
    rfl

theorem breakAt?_terminated (name : List Char) {parts : List (List Char)}
    (unbraced : ∀ part ∈ parts, Unbraced part) (text : List Char) :
    breakAt? ('\x7b' :: '\x7b' :: name) (terminated parts ++ text) =
      (breakAt? ('\x7b' :: '\x7b' :: name) text).map
        fun found => (terminated parts ++ found.1, found.2) := by
  induction parts with
  | nil => simp [terminated]
  | cons part rest ih =>
    have later := ih fun other member => unbraced other (List.mem_cons_of_mem _ member)
    rw [terminated_cons, List.append_assoc, List.cons_append,
      breakAt?_line name (unbraced part List.mem_cons_self), later, Option.map_map]
    simp [Function.comp_def]

/-! ## The fixed lines of the scaffold -/

/-- One line, not a long one, that is not a precision statement and in which no placeholder
    begins. -/
structure IsFixed (line : List Char) : Prop where
  oneLine : '\n' ∉ line
  short : line.length ≤ 80
  unbraced : Unbraced line
  plain : after? "precision".toList (trimStart line) = none

instance (line : List Char) : Decidable (IsFixed line) :=
  decidable_of_iff ('\n' ∉ line ∧ line.length ≤ 80 ∧ Unbraced line ∧
      after? "precision".toList (trimStart line) = none)
    ⟨fun parts => ⟨parts.1, parts.2.1, parts.2.2.1, parts.2.2.2⟩,
      fun fixed => ⟨fixed.1, fixed.2, fixed.3, fixed.4⟩⟩

theorem isFixed_ofList {line : List Char} (fixed : IsFixed line) :
    IsFixed (String.ofList line).toList := by
  rw [String.toList_ofList]
  exact fixed

theorem isFixed_version : IsFixed "#version 450".toList := by
  apply isFixed_ofList
  decide +kernel

theorem isFixed_declarations : ∀ line ∈ declarations.map String.toList, IsFixed line := by
  simp only [declarations, List.map_cons, List.map_nil, List.forall_mem_cons, List.not_mem_nil,
    false_imp_iff, implies_true, and_true]
  and_intros
  all_goals
    apply isFixed_ofList
    decide +kernel

theorem isFixed_closing : ∀ line ∈ closing, IsFixed line := by
  simp only [closing, List.map_cons, List.map_nil, List.forall_mem_cons, List.not_mem_nil,
    false_imp_iff, implies_true, and_true]
  and_intros
  all_goals
    apply isFixed_ofList
    decide +kernel

theorem IsFixed.precisionOfLine? {line : List Char} (fixed : IsFixed line) :
    Scaffold.precisionOfLine? line = none := by
  rw [Scaffold.precisionOfLine?, fixed.plain]
  rfl

theorem head_eq_terminated (precisions : List Precision) :
    head precisions = terminated (headLines precisions) :=
  unlines_append_break (List.cons_ne_nil _ _)

theorem tail_eq_terminated : tail = '\n' :: terminated closing :=
  (unlines_concat_nil ([] :: closing)).trans (terminated_cons [] closing)

/-! ## The statements of the head -/

/-- A statement that can stand in a text. -/
structure Precision.IsValid (precision : Precision) : Prop where
  qualifier : precision.qualifier ∈ qualifiers
  type : IsWord precision.type

theorem Precision.IsStatedBy.isValid {precision : Precision} {line : List Char}
    (stated : precision.IsStatedBy line) : precision.IsValid :=
  ⟨stated.1, stated.2.1⟩

section Valid

variable {precision : Precision}

theorem keyword_append_space : "precision ".toList = "precision".toList ++ [' '] := by
  decide +kernel

theorem Precision.statement_eq (precision : Precision) : precision.statement =
    "precision".toList ++ ([' '] ++ (precision.qualifier ++ ([' '] ++ (precision.type ++
      ([] ++ [';']))))) := by
  unfold Precision.statement
  rw [keyword_append_space]
  -- the literal stays closed in the rest of the proof
  generalize "precision".toList = keyword
  simp

theorem Precision.IsValid.isStatedBy (valid : precision.IsValid) :
    precision.IsStatedBy precision.statement := by
  refine ⟨valid.qualifier, valid.type, [], [' '], [' '], [], [], rfl, List.cons_ne_nil _ _, rfl,
    List.cons_ne_nil _ _, rfl, rfl, rfl, ?_⟩
  exact precision.statement_eq

theorem isWord_of_all {c : Char} {rest : List Char} (start : isNameStart c = true)
    (letters : rest.all isNameStart = true) : IsWord (c :: rest) :=
  ⟨start, fun d inside => isWordChar_of_isNameStart (List.all_eq_true.mp letters d inside)⟩

theorem isWordChar_of_mem_qualifiers {qualifier : List Char} (member : qualifier ∈ qualifiers) :
    ∀ c ∈ qualifier, isWordChar c = true := by
  have letters : ∀ qualifier ∈ qualifiers, qualifier.all isNameStart = true := by decide
  exact fun c inside =>
    isWordChar_of_isNameStart (List.all_eq_true.mp (letters qualifier member) c inside)

/-- A statement is made of words, spaces and its semicolon. -/
theorem Precision.IsValid.notMem_statement (valid : precision.IsValid) {c : Char}
    (noWord : isWordChar c = false) (noSpace : c ≠ ' ') (noEnd : c ≠ ';') :
    c ∉ precision.statement := by
  have keyword : "precision".toList.all isNameStart = true := by decide
  have inWord : isWordChar c ≠ true := Bool.eq_false_iff.mp noWord
  rw [precision.statement_eq]
  refine List.mem_append.not.mpr (not_or.mpr ⟨fun inKeyword => ?_, ?_⟩)
  · exact inWord (isWordChar_of_isNameStart (List.all_eq_true.mp keyword c inKeyword))
  · have inQualifier : c ∉ precision.qualifier := fun inside =>
      inWord (isWordChar_of_mem_qualifiers valid.qualifier c inside)
    have inType : c ∉ precision.type := fun inside => inWord (valid.type.isWordChar c inside)
    simp [inQualifier, inType, noSpace, noEnd]

theorem Precision.IsValid.oneLine (valid : precision.IsValid) : '\n' ∉ precision.statement :=
  valid.notMem_statement (by decide) (by decide) (by decide)

theorem Precision.IsValid.unbraced (valid : precision.IsValid) : Unbraced precision.statement :=
  unbraced_of_notMem (valid.notMem_statement (by decide) (by decide) (by decide))

end Valid

section Heads

variable {precisions : List Precision}

theorem IsHead.isValid {lines : List (List Char)} (isHead : IsHead lines precisions) :
    ∀ precision ∈ precisions, precision.IsValid := by
  have stated : ∀ statement ∈ statements lines, statement.IsValid := by
    intro statement member
    obtain ⟨line, -, found⟩ := List.mem_filterMap.mp member
    exact (precisionOfLine?_eq_some_iff.mp found).isValid
  intro precision member
  refine ⟨?_, ?_⟩
  · rw [isHead.qualifier precision member]
    cases last : lastStatement? (statements lines) precision.type with
    | none => decide
    | some statement =>
      have inCode := (List.mem_filter.mp (List.mem_of_getLast? last)).1
      exact (stated statement inCode).qualifier
  · have listed := List.mem_map_of_mem (f := (·.type)) member
    rw [isHead.types] at listed
    rcases List.mem_append.mp listed with default | other
    · simp only [List.mem_cons, List.not_mem_nil, or_false] at default
      rcases default with same | same
      · rw [same]
        exact isWord_of_all (by decide) (by decide)
      · rw [same]
        exact isWord_of_all (by decide) (by decide)
    · obtain ⟨statement, inCode, same⟩ :=
        List.mem_map.mp (List.mem_eraseDups.mp (List.mem_filter.mp other).1)
      exact same ▸ (stated statement inCode).type

theorem headLines_oneLine (valid : ∀ precision ∈ precisions, precision.IsValid) :
    ∀ line ∈ headLines precisions, '\n' ∉ line := by
  intro line member
  rcases List.mem_append.mp member with inFront | declared
  · rcases List.mem_cons.mp inFront with rfl | stated
    · exact isFixed_version.oneLine
    · obtain ⟨precision, listed, rfl⟩ := List.mem_map.mp stated
      exact (valid precision listed).oneLine
  · exact (isFixed_declarations line declared).oneLine

theorem headLines_unbraced (valid : ∀ precision ∈ precisions, precision.IsValid) :
    ∀ line ∈ headLines precisions, Unbraced line := by
  intro line member
  rcases List.mem_append.mp member with inFront | declared
  · rcases List.mem_cons.mp inFront with rfl | stated
    · exact isFixed_version.unbraced
    · obtain ⟨precision, listed, rfl⟩ := List.mem_map.mp stated
      exact (valid precision listed).unbraced
  · exact (isFixed_declarations line declared).unbraced

/-- The head has these statements and no others. -/
theorem statements_headLines (valid : ∀ precision ∈ precisions, precision.IsValid) :
    statements (headLines precisions) = precisions := by
  have fixed : ∀ lines : List (List Char), (∀ line ∈ lines, IsFixed line) →
      lines.filterMap Scaffold.precisionOfLine? = [] := fun lines isFixed =>
    List.filterMap_eq_nil_iff.mpr fun line member => (isFixed line member).precisionOfLine?
  have stated : (precisions.map Precision.statement).filterMap Scaffold.precisionOfLine? =
      precisions := by
    rw [List.filterMap_map]
    refine (List.filterMap_congr fun precision member => ?_).trans List.filterMap_some
    exact precisionOfLine?_eq_some_iff.mpr (valid precision member).isStatedBy
  rw [statements, headLines, List.filterMap_append, List.filterMap_cons,
    isFixed_version.precisionOfLine?, stated, fixed _ isFixed_declarations, List.append_nil]

/-! ## Filling the template -/

/-- Lines put in between others end with the line feed that is already there. -/
theorem terminated_splice {middle : List (List Char)} (nonempty : middle ≠ [])
    (front back : List (List Char)) (rest : List Char) :
    terminated front ++ unlines middle ++ (terminated ([] :: back) ++ rest) =
      terminated (front ++ middle ++ back) ++ rest := by
  rw [terminated_append, terminated_append, ← unlines_append_break nonempty, terminated_cons]
  simp only [List.append_assoc, List.cons_append, List.nil_append]

/-- The template, cut at its placeholders. -/
theorem template_eq : template = terminated ["#version 450".toList] ++ (precisionPlace ++
    (terminated ([] :: declarations.map String.toList) ++ (codePlace ++ tail))) := by
  rw [template, unlines_concat_nil, tail_eq_terminated]
  simp only [terminated_cons, terminated_append, List.cons_append, List.append_assoc,
    List.nil_append]
  rfl

theorem breakAt?_precisionPlace : breakAt? precisionPlace template =
    some (terminated ["#version 450".toList],
      terminated ([] :: declarations.map String.toList) ++ (codePlace ++ tail)) := by
  have unbraced : ∀ line ∈ ["#version 450".toList], Unbraced line := by
    intro line member
    rw [List.mem_singleton.mp member]
    exact isFixed_version.unbraced
  have here := breakAt?_terminated "PRECISION\x7d\x7d".toList unbraced
    (precisionPlace ++ (terminated ([] :: declarations.map String.toList) ++ (codePlace ++ tail)))
  rw [← template_eq] at here
  refine here.trans ?_
  show (breakAt? precisionPlace _).map _ = _
  rw [breakAt?_self_append precisionPlace_ne_nil, Option.map_some, List.append_nil]

/-- The precision statements have one place only. -/
theorem breakAt?_precisionPlace_later : breakAt? precisionPlace
    (terminated ([] :: declarations.map String.toList) ++ (codePlace ++ tail)) = none := by
  have unbraced : ∀ line ∈ [] :: declarations.map String.toList, Unbraced line := by
    intro line member
    rcases List.mem_cons.mp member with rfl | declared
    · exact .nil
    · exact (isFixed_declarations line declared).unbraced
  refine (breakAt?_terminated "PRECISION\x7d\x7d".toList unbraced _).trans ?_
  have behind : ∀ line ∈ "\x7bUSER_CODE\x7d\x7d".toList :: closing, Unbraced line := by
    intro line member
    rcases List.mem_cons.mp member with rfl | isClosing
    · decide
    · exact (isFixed_closing line isClosing).unbraced
  have whole : codePlace ++ tail =
      '\x7b' :: terminated ("\x7bUSER_CODE\x7d\x7d".toList :: closing) := by
    rw [tail_eq_terminated, terminated_cons]
    rfl
  have missing : breakAt? ('\x7b' :: '\x7b' :: "PRECISION\x7d\x7d".toList)
      (codePlace ++ tail) = none := by
    rw [whole, breakAt?_cons_of_none, ← List.append_nil (terminated _),
      breakAt?_terminated _ behind]
    · rfl
    · rw [terminated_cons]
      rfl
  rw [missing]
  rfl

/-- The filled template is the head, the code and the tail. -/
theorem fill_eq (stated : precisions ≠ [])
    (valid : ∀ precision ∈ precisions, precision.IsValid) (code : List Char) :
    fill precisions code = head precisions ++ code ++ tail := by
  have scaffold : replaceAll precisionPlace precisionPlace_ne_nil
      (unlines (precisions.map Precision.statement)) template =
      terminated (headLines precisions) ++ (codePlace ++ tail) := by
    rw [replaceAll_of_found breakAt?_precisionPlace,
      replaceAll_of_missing breakAt?_precisionPlace_later,
      terminated_splice (List.map_eq_nil_iff.not.mpr stated)]
    rfl
  have cut : breakAt? codePlace (terminated (headLines precisions) ++ (codePlace ++ tail)) =
      some (terminated (headLines precisions), tail) := by
    refine (breakAt?_terminated "USER_CODE\x7d\x7d".toList (headLines_unbraced valid) _).trans ?_
    show (breakAt? codePlace _).map _ = _
    rw [breakAt?_self_append codePlace_ne_nil, Option.map_some, List.append_nil]
  unfold fill
  rw [scaffold]
  dsimp only
  rw [cut, head_eq_terminated]
  rfl

end Heads

end Scaffold

end Multipass
