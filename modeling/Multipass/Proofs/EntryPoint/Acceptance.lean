import Multipass.Proofs.EntryPoint.Declarations

/-!
# The entry points that are accepted

A text is accepted exactly if the code of it, comments left aside, declares the entry point,
each time with the signature that is required and at least once with something else than a
semicolon behind it.
-/

namespace Multipass.EntryPoint

open Comment Text

/-! ## Declarations among the characters of a text -/

/-- `<type> mainImage (` stands in the code of a text, where a word begins, and `after` is the
rest of the text. -/
def Declares (characters : List Placed) (type : List Char) (after : List Placed) : Prop :=
  ∃ before naming, characters = before ++ (asCode type ++ (naming ++ after)) ∧
    insideWordAfter false (before.map Placed.blanked) = false ∧ IsWord type ∧ IsNaming naming

section Declared

variable {characters naming after : List Placed} {type text : List Char}

/-- What the search finds in a text without comments is declared in the text with them. -/
theorem mem_declarations_iff {declaration : Declaration} :
    declaration ∈ declarations (blank text) ↔
      ∃ before type naming after, placed .code text = before ++ (asCode type ++ (naming ++ after)) ∧
        insideWordAfter false (before.map Placed.blanked) = false ∧ IsWord type ∧ IsNaming naming ∧
        declaration ∈ headed (1 + (before.map Placed.blanked).count '\n')
          ((asCode type ++ (naming ++ after)).map Placed.blanked) type (after.map Placed.blanked) := by
  rw [declarations, mem_declarationsFrom_iff, blank_eq_map]
  constructor
  · rintro ⟨_, _, type, _, ⟨whole, boundary, found⟩, member⟩
    obtain ⟨before, back, split, rfl, rfl⟩ := List.map_eq_append_iff.mp whole
    obtain ⟨naming, after, isWord, isNaming, rfl, rfl⟩ := heading?_map_iff.mp found
    exact ⟨before, type, naming, after, split, boundary, isWord, isNaming, member⟩
  · rintro ⟨before, type, naming, after, split, boundary, isWord, isNaming, member⟩
    exact ⟨_, _, type, _, ⟨by rw [split, List.map_append], boundary,
      heading?_map_iff.mpr ⟨naming, after, isWord, isNaming, rfl, rfl⟩⟩, member⟩

theorem mem_headed_iff {line : Nat} {parameters : List Char} {declaration : Declaration} :
    declaration ∈ headed line text type parameters ↔
      type ∉ expressionKeywords ∧
        declaration = ⟨line + linesBeforeName text, text, kindAt parameters⟩ := by
  unfold headed
  split <;> simp_all

/-- A declaration has the signature if its type and its parameters are the required ones. -/
theorem hasSignature_declared (isWord : IsWord type) (isNaming : IsNaming naming) :
    hasSignature ((asCode type ++ (naming ++ after)).map Placed.blanked) = true ↔
      type = "void".toList ∧ ∃ parameters rest, IsParameters parameters ∧ after = parameters ++ rest := by
  rw [hasSignature_map_iff]
  constructor
  · rintro ⟨naming', parameters, rest, isNaming', isParameters, same⟩
    have read := heading?_map_iff.mpr ⟨naming, after, isWord, isNaming, rfl, rfl⟩
    have read' := heading?_map_iff.mpr ⟨naming', parameters ++ rest, isWord_void, isNaming', rfl, rfl⟩
    rw [same] at read
    obtain ⟨rfl, behind⟩ := Prod.ext_iff.mp (Option.some.inj (read.symm.trans read'))
    have length : after.length = (parameters ++ rest).length := by
      simpa using congrArg List.length behind
    rw [← List.append_assoc, ← List.append_assoc] at same
    exact ⟨rfl, parameters, rest, isParameters, List.append_inj_right' same length⟩
  · rintro ⟨rfl, parameters, rest, isParameters, rfl⟩
    exact ⟨naming, parameters, rest, isNaming, isParameters, rfl⟩

/-- A declaration that the search finds says what a text declares. -/
structure Tells (declaration : Declaration) (type : List Char) (after : List Placed) : Prop where
  kind : declaration.kind = kindAt (after.map Placed.blanked)
  signature : hasSignature declaration.text = true ↔
    type = "void".toList ∧ ∃ parameters rest, IsParameters parameters ∧ after = parameters ++ rest

/-- What a text declares is found. -/
theorem Declares.exists_tells (declares : Declares (placed .code text) type after)
    (isType : type ∉ expressionKeywords) :
    ∃ declaration ∈ declarations (blank text), Tells declaration type after := by
  obtain ⟨before, naming, split, boundary, isWord, isNaming⟩ := declares
  exact ⟨_, mem_declarations_iff.mpr ⟨before, type, naming, after, split, boundary, isWord,
    isNaming, mem_headed_iff.mpr ⟨isType, rfl⟩⟩, rfl, hasSignature_declared isWord isNaming⟩

/-- What is found, a text declares. -/
theorem exists_declares_of_mem {declaration : Declaration}
    (member : declaration ∈ declarations (blank text)) :
    ∃ type after, Declares (placed .code text) type after ∧ type ∉ expressionKeywords ∧
      Tells declaration type after := by
  obtain ⟨before, type, naming, after, split, boundary, isWord, isNaming, member⟩ :=
    mem_declarations_iff.mp member
  obtain ⟨isType, rfl⟩ := mem_headed_iff.mp member
  exact ⟨type, after, ⟨before, naming, split, boundary, isWord, isNaming⟩, isType, rfl,
    hasSignature_declared isWord isNaming⟩

end Declared

/-! ## The check -/

/-- Nothing is declared in a blank text. -/
theorem declarations_of_isAllBlank {text : List Char} (blank : isAllBlank text = true) :
    declarations (Comment.blank text) = [] := by
  have isGap : IsGap (placed .code text) := by
    intro character member
    have inText : character.char ∈ text := map_char_placed .code text ▸ List.mem_map_of_mem member
    rw [Placed.isGap, List.all_eq_true.mp blank _ inText, Bool.or_true]
  refine List.eq_nil_iff_forall_not_mem.mpr fun declaration member => ?_
  obtain ⟨before, type, naming, after, split, -, isWord, -⟩ := mem_declarations_iff.mp member
  obtain ⟨c, rest, rfl⟩ := List.exists_cons_of_ne_nil (ne_nil_of_isWord isWord)
  have inText : ⟨c, false⟩ ∈ placed .code text := split ▸ by simp [alike]
  have visible := isBlank_of_mem_word isWord c List.mem_cons_self
  exact Bool.false_ne_true (visible.symm.trans (isGap _ inText))

theorem problem?_eq_none_iff {expanded : List Char} :
    problem? expanded = none ↔
      (∃ declaration ∈ declarations (blank expanded), declaration.kind ≠ .prototype) ∧
        ∀ declaration ∈ declarations (blank expanded), hasSignature declaration.text = true := by
  unfold problem?
  by_cases isBlank : isAllBlank expanded = true
  · rw [if_pos isBlank, declarations_of_isAllBlank isBlank]
    simp
  · rw [if_neg isBlank]
    by_cases missing : (declarations (blank expanded)).all (·.kind == .prototype) = true
    · rw [if_pos missing]
      refine iff_of_false nofun ?_
      rintro ⟨⟨declaration, member, defined⟩, -⟩
      exact defined (beq_iff_eq.mp (List.all_eq_true.mp missing declaration member))
    · rw [if_neg missing, Option.map_eq_none_iff, List.find?_eq_none]
      have defined : ∃ declaration ∈ declarations (blank expanded), declaration.kind ≠ .prototype := by
        simpa using missing
      simp [defined]

theorem validateEntryPoint_eq_ok_iff {expanded : String} {pass : PassName} :
    validateEntryPoint expanded pass = .ok () ↔ problem? expanded.toList = none := by
  unfold validateEntryPoint
  cases problem? expanded.toList <;> simp

/-- Exactly those texts are accepted that declare the entry point with the signature, at least
once with something else than a semicolon behind the parameters, and in no other way. -/
theorem accepted_iff (expanded : String) (pass : PassName) :
    validateEntryPoint expanded pass = .ok () ↔
      (∃ parameters rest, Declares (placed .code expanded.toList) "void".toList (parameters ++ rest) ∧
        IsParameters parameters ∧ ¬ Follows ';' rest) ∧
      ∀ type after, Declares (placed .code expanded.toList) type after → type ∉ expressionKeywords →
        type = "void".toList ∧ ∃ parameters rest, IsParameters parameters ∧ after = parameters ++ rest := by
  rw [validateEntryPoint_eq_ok_iff, problem?_eq_none_iff]
  constructor
  · rintro ⟨⟨declaration, member, notPrototype⟩, signed⟩
    have all : ∀ type after, Declares (placed .code expanded.toList) type after →
        type ∉ expressionKeywords →
        type = "void".toList ∧ ∃ parameters rest, IsParameters parameters ∧
          after = parameters ++ rest := by
      intro type after declares isType
      obtain ⟨found, member, tells⟩ := declares.exists_tells isType
      exact tells.signature.mp (signed found member)
    obtain ⟨type, after, declares, isType, tells⟩ := exists_declares_of_mem member
    obtain ⟨rfl, parameters, rest, isParameters, rfl⟩ := all type after declares isType
    refine ⟨⟨parameters, rest, declares, isParameters, fun follows => notPrototype ?_⟩, all⟩
    exact tells.kind.trans ((kindAt_eq_prototype_iff isParameters).mpr follows)
  · rintro ⟨⟨parameters, rest, declares, isParameters, noSemicolon⟩, all⟩
    constructor
    · obtain ⟨found, member, tells⟩ := declares.exists_tells (by decide)
      refine ⟨found, member, fun isPrototype => noSemicolon ?_⟩
      exact (kindAt_eq_prototype_iff isParameters).mp (tells.kind.symm.trans isPrototype)
    · intro declaration member
      obtain ⟨type, after, declares, isType, tells⟩ := exists_declares_of_mem member
      exact tells.signature.mpr (all type after declares isType)

/-- A declaration at the end of a text is accepted, though no definition follows. -/
theorem accepted_without_definition :
    validateEntryPoint "void mainImage(out vec4 c, vec2 p)" .image = .ok () ∧
      ¬ ∃ parameters rest,
        Declares (placed .code "void mainImage(out vec4 c, vec2 p)".toList) "void".toList
          (parameters ++ rest) ∧ IsParameters parameters ∧ Follows '{' rest := by
  constructor
  · have none : (problem? "void mainImage(out vec4 c, vec2 p)".toList).isNone = true := by
      decide +kernel
    exact validateEntryPoint_eq_ok_iff.mpr (Option.isNone_iff_eq_none.mp none)
  · rintro ⟨parameters, rest, ⟨before, naming, split, -⟩, -, gap, later, -, rfl⟩
    have brace : (⟨'{', false⟩ : Placed) ∈
        placed .code "void mainImage(out vec4 c, vec2 p)".toList := by
      rw [split]
      simp [alike]
    revert brace
    decide

end Multipass.EntryPoint
