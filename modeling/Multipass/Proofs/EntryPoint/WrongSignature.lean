import Multipass.Proofs.EntryPoint.Acceptance
import Multipass.Proofs.Text.Search

/-!
# Where a wrong signature is reported

The declarations of a text are found in the order in which they stand, so it is the first one
with a wrong signature that is reported. The line is the one on which the characters of the name
first stand in this declaration. They stand in the name itself, unless they are also a part of
the type in front of it.
-/

namespace Multipass

namespace EntryPoint

open Comment Text

/-! ## The line feeds in front of the name -/

section Name

variable {type blanks behind : List Char}

theorem notMem_of_isWord (isWord : IsWord type) : '\n' ∉ type := by
  intro member
  exact absurd (isWord.isWordChar '\n' member) (by decide)

/-- In a type that has the name in it, the name is found on the line of the type. -/
theorem linesBeforeName_of_infix (isWord : IsWord type) (named : name <:+: type) :
    linesBeforeName (type ++ behind) = 0 := by
  obtain ⟨before, after, rfl⟩ := named
  rw [linesBeforeName]
  cases found : breakAt? name (before ++ name ++ after ++ behind) with
  | none => rfl
  | some parts =>
    obtain ⟨front, rest⟩ := parts
    rw [List.append_assoc, List.append_assoc] at found
    have whole := eq_append_of_breakAt? found
    rw [List.append_assoc front] at whole
    have inFront : front <+: before :=
      List.prefix_of_prefix_length_le ⟨name ++ rest, whole.symm⟩ (List.prefix_append before _)
        (length_le_of_breakAt? found)
    refine List.count_eq_zero.mpr ?_
    intro member
    apply notMem_of_isWord isWord
    rw [List.append_assoc]
    exact List.mem_append_left _ (inFront.subset member)

/-- A row of word characters with a blank behind it begins with the name only if the name is in
the row. -/
theorem name_infix_of_append {word rest : List Char} (some : blanks ≠ [])
    (blank : isAllBlank blanks = true) (same : word ++ (blanks ++ behind) = name ++ rest) :
    name <:+: word := by
  rcases List.append_eq_append_iff.mp same with ⟨middle, split, later⟩ | ⟨middle, rfl, -⟩
  · cases middle with
    | nil => simp [split]
    | cons c others =>
      obtain ⟨first, later', rfl⟩ := List.exists_cons_of_ne_nil some
      obtain rfl : first = c := (List.cons.inj later).1
      have inName : first ∈ name := by simp [split]
      have visible := isBlank_of_isWordChar (isWord_name.isWordChar first inName)
      have isBlank := List.all_eq_true.mp blank first List.mem_cons_self
      exact absurd (visible.symm.trans isBlank) (by decide)
  · exact List.infix_append [] name middle

/-- Behind a type that does not have the name in it, the name is found where it stands. -/
theorem linesBeforeName_of_not_infix (isWord : IsWord type) (unnamed : ¬ name <:+: type)
    (some : blanks ≠ []) (blank : isAllBlank blanks = true) :
    linesBeforeName (type ++ (blanks ++ (name ++ behind))) = blanks.count '\n' := by
  obtain ⟨front, rest, found⟩ := @exists_breakAt? name (type ++ blanks) behind
  obtain ⟨tail, split⟩ : front <+: type ++ blanks := by
    apply List.prefix_of_prefix_length_le ⟨name ++ rest, _⟩ (List.prefix_append _ (name ++ behind))
    · exact length_le_of_breakAt? found
    · rw [eq_append_of_breakAt? found, List.append_assoc]
  have later : tail ++ (name ++ behind) = name ++ rest := by
    have whole := eq_append_of_breakAt? found
    rw [← split, List.append_assoc, List.append_assoc] at whole
    exact List.append_cancel_left whole
  have ends : tail = [] := by
    by_contra more
    rcases List.append_eq_append_iff.mp split with ⟨middle, rfl, rfl⟩ | ⟨middle, rfl, rfl⟩
    · rw [List.append_assoc] at later
      have inRow := name_infix_of_append some blank later
      exact unnamed (inRow.trans (List.suffix_append _ _).isInfix)
    · have inRow := @name_infix_of_append tail (name ++ behind) [] rest more ?_ later
      · exact absurd inRow (by decide)
      · rw [isAllBlank, List.all_append] at blank
        exact ((Bool.and_eq_true _ _).mp blank).2
  rw [ends, List.append_nil] at split
  rw [linesBeforeName, ← List.append_assoc, found]
  show front.count '\n' = _
  rw [split, List.count_append, List.count_eq_zero.mpr (notMem_of_isWord isWord), Nat.zero_add]

end Name

/-! ## The order of the declarations -/

section Order

variable {line : Nat} {inside : Bool} {code : List Char} {declaration : Declaration}

theorem text_suffix_of_mem (member : declaration ∈ declarationsFrom line inside code) :
    declaration.text <:+ code := by
  obtain ⟨before, text, type, parameters, heading, member⟩ := mem_declarationsFrom_iff.mp member
  obtain ⟨-, rfl⟩ := mem_headed_iff.mp member
  exact ⟨before, heading.whole.symm⟩

/-- What is found later stands later: less of the text is left there. -/
theorem pairwise_declarationsFrom (line : Nat) (inside : Bool) (code : List Char) :
    (declarationsFrom line inside code).Pairwise fun earlier later =>
      later.text.length < earlier.text.length := by
  induction length : code.length using Nat.strong_induction_on generalizing line inside code with
  | _ n ih =>
    subst length
    cases code with
    | nil =>
      rw [declarationsFrom.eq_def]
      exact .nil
    | cons c rest =>
      by_cases skip : inside = false → heading? (c :: rest) = none
      · rw [declarationsFrom_cons line skip]
        exact ih rest.length (Nat.lt_succ_self _) _ _ rest rfl
      · obtain ⟨rfl, some⟩ := Classical.not_imp.mp skip
        obtain ⟨⟨type, parameters⟩, found⟩ := Option.ne_none_iff_exists'.mp some
        obtain ⟨consumed, whole⟩ := heading?_suffix found
        have shorter : parameters.length < (c :: rest).length := heading?_shorter found
        rw [whole] at found shorter ⊢
        rw [declarationsFrom_heading line found, List.pairwise_append]
        refine ⟨?_, ih parameters.length (whole ▸ shorter) _ _ parameters rfl, ?_⟩
        · unfold headed
          split <;> simp
        · intro first isFirst later isLater
          obtain ⟨-, rfl⟩ := mem_headed_iff.mp isFirst
          have left := (text_suffix_of_mem isLater).length_le
          exact Nat.lt_of_le_of_lt left shorter

end Order

/-! ## Declarations and their lines -/

/-- A declaration of the entry point among the characters of a text: what stands in front of it,
its type, the space up to the name, the gap behind the name, and what is left behind the opening
parenthesis. -/
structure Site (characters : List Placed) where
  before : List Placed
  type : List Char
  space : List Placed
  gap : List Placed
  after : List Placed
  whole : characters =
    before ++ (asCode type ++ ((space ++ (asCode name ++ (gap ++ asCode ['(']))) ++ after))
  boundary : insideWordAfter false (before.map Placed.blanked) = false
  isWord : IsWord type
  isType : type ∉ expressionKeywords
  isSpace : IsSpace space
  isGap : IsGap gap

namespace Site

variable {characters : List Placed}

/-- The line of the text on which the type of a declaration stands. -/
def typeLine (site : Site characters) : Nat :=
  1 + (site.before.map (·.char)).count '\n'

/-- The line of the text on which the name of a declaration stands. -/
def nameLine (site : Site characters) : Nat :=
  1 + ((site.before ++ (asCode site.type ++ site.space)).map (·.char)).count '\n'

/-- Does a declaration have the type and the parameters that are required? -/
def IsSigned (site : Site characters) : Prop :=
  site.type = "void".toList ∧
    ∃ parameters rest, IsParameters parameters ∧ site.after = parameters ++ rest

/-- The signature is wrong, and no declaration in front of this one has a wrong one. -/
def IsFirstWrong (site : Site characters) : Prop :=
  ¬ site.IsSigned ∧
    ∀ other : Site characters, other.before.length < site.before.length → other.IsSigned

/-- What is left of the text where a declaration begins, its comments blanked out. -/
def text (site : Site characters) : List Char :=
  (asCode site.type ++ ((site.space ++ (asCode name ++ (site.gap ++ asCode ['(']))) ++
    site.after)).map Placed.blanked

/-- The declaration that the search makes of a site. -/
def found (site : Site characters) : Declaration :=
  ⟨1 + (site.before.map Placed.blanked).count '\n' + linesBeforeName site.text, site.text,
    kindAt (site.after.map Placed.blanked)⟩

theorem length_text (site : Site characters) :
    site.before.length + site.text.length = characters.length := by
  have length := congrArg List.length site.whole
  rw [List.length_append] at length
  rw [text, List.length_map, length]

theorem isNaming (site : Site characters) :
    IsNaming (site.space ++ (asCode name ++ (site.gap ++ asCode ['(']))) :=
  .intro site.isSpace site.isGap

theorem hasSignature_iff (site : Site characters) :
    hasSignature site.text = true ↔ site.IsSigned :=
  hasSignature_declared site.isWord site.isNaming

/-- A declaration is found on the line of its name, unless its type has the name in it. -/
theorem line_found (site : Site characters) :
    site.found.line = if name <:+: site.type then site.typeLine else site.nameLine := by
  have some : site.space.map Placed.blanked ≠ [] := by
    simpa using site.isSpace.1
  have blank := isAllBlank_map_blanked.mpr site.isSpace.2
  have split : site.text = site.type ++ (site.space.map Placed.blanked ++
      (name ++ (site.gap ++ (asCode ['('] ++ site.after)).map Placed.blanked)) := by
    simp [text]
  rw [found, split]
  by_cases named : name <:+: site.type
  · rw [if_pos named, linesBeforeName_of_infix site.isWord named, count_map_blanked, typeLine,
      Nat.add_zero]
  · have oneLine : ((asCode site.type).map (·.char)).count '\n' = 0 := by
      rw [← count_map_blanked, map_blanked_alike]
      exact List.count_eq_zero.mpr (notMem_of_isWord site.isWord)
    rw [if_neg named, linesBeforeName_of_not_infix site.isWord named some blank, nameLine]
    simp only [count_map_blanked, List.map_append, List.count_append, oneLine]
    omega

end Site

variable {text : List Char} {declaration : Declaration}

theorem mem_declarations_iff_site :
    declaration ∈ declarations (blank text) ↔
      ∃ site : Site (placed .code text), declaration = site.found := by
  rw [mem_declarations_iff]
  constructor
  · rintro ⟨before, type, _, after, whole, boundary, isWord, isNaming, member⟩
    obtain ⟨isType, rfl⟩ := mem_headed_iff.mp member
    cases isNaming with
    | @intro space gap isSpace isGap =>
      exact ⟨⟨before, type, space, gap, after, whole, boundary, isWord, isType, isSpace, isGap⟩, rfl⟩
  · rintro ⟨site, rfl⟩
    exact ⟨site.before, site.type, _, site.after, site.whole, site.boundary, site.isWord,
      site.isNaming, mem_headed_iff.mpr ⟨site.isType, rfl⟩⟩

/-! ## The report -/

/-- The declaration that is reported is the first one with a wrong signature. -/
theorem exists_firstWrong
    (found : (declarations (blank text)).find? (!hasSignature ·.text) = some declaration) :
    ∃ site : Site (placed .code text), site.IsFirstWrong ∧ declaration = site.found := by
  obtain ⟨unsigned, earlier, later, split, signed⟩ := List.find?_eq_some_iff_append.mp found
  have ordered : (declarations (blank text)).Pairwise _ := pairwise_declarationsFrom 1 false _
  have member : declaration ∈ declarations (blank text) := by simp [split]
  obtain ⟨site, rfl⟩ := mem_declarations_iff_site.mp member
  refine ⟨site, ⟨?_, ?_⟩, rfl⟩
  · intro isSigned
    have isTrue : hasSignature site.found.text = true := site.hasSignature_iff.mpr isSigned
    simp [isTrue] at unsigned
  · intro other inFront
    have otherMember := mem_declarations_iff_site.mpr ⟨other, rfl⟩
    rw [split] at otherMember ordered
    rcases List.mem_append.mp otherMember with isEarlier | isLater
    · have isTrue : hasSignature other.found.text = true := by
        simpa using signed other.found isEarlier
      exact other.hasSignature_iff.mp isTrue
    · have lengths := site.length_text.trans other.length_text.symm
      have shorter : other.text.length ≤ site.text.length := by
        rcases List.mem_cons.mp isLater with same | behind
        · have texts : other.text = site.text := congrArg Declaration.text same
          rw [texts]
        · have ends := (List.pairwise_append.mp ordered).2.1
          exact Nat.le_of_lt ((List.pairwise_cons.mp ends).1 _ behind)
      omega

theorem find?_of_problem? {line : Nat} {problem : Problem}
    (rejected : problem? text = some ⟨line, problem⟩) (lined : line ≠ 0) :
    ∃ bad, (declarations (blank text)).find? (!hasSignature ·.text) = some bad ∧
      bad.line = line := by
  unfold problem? at rejected
  split at rejected
  · cases rejected
    exact absurd rfl lined
  · simp only at rejected
    split at rejected
    · cases rejected
      exact absurd rfl lined
    · obtain ⟨bad, found, same⟩ := Option.map_eq_some_iff.mp rejected
      cases same
      exact ⟨bad, found, rfl⟩

/-- A text that is rejected on some line is rejected on that of the first declaration with a
wrong signature: the line of its name, or that of its type if the type has the name in it. -/
theorem wrongSignature_line {expanded : String} {pass : PassName} {failure : PassFailure}
    {error : Located String} (rejected : validateEntryPoint expanded pass = .error failure)
    (member : error ∈ failure.errors) (lined : error.line ≠ 0) :
    ∃ site : Site (placed .code expanded.toList), site.IsFirstWrong ∧
      error.line = if name <:+: site.type then site.typeLine else site.nameLine := by
  unfold validateEntryPoint at rejected
  cases detected : problem? expanded.toList with
  | none =>
    rw [detected] at rejected
    cases rejected
  | some problem =>
    rw [detected] at rejected
    cases rejected
    obtain rfl := List.mem_singleton.mp member
    obtain ⟨bad, found, line⟩ := find?_of_problem? detected lined
    obtain ⟨site, isFirst, rfl⟩ := exists_firstWrong found
    refine ⟨site, isFirst, ?_⟩
    rw [← site.line_found, line]

private theorem rejected_commented :
    validateEntryPoint "/*\n*/vec4//\nmainImage()\x7b\x7d" .image =
      .error (.single .image 3 Problem.wrongSignature.message) := by
  have detected : problem? "/*\n*/vec4//\nmainImage()\x7b\x7d".toList =
      some ⟨3, .wrongSignature⟩ := by
    decide +kernel
  rw [validateEntryPoint, detected]

theorem wrongSignature_line_commented :
    ∃ failure error,
      validateEntryPoint "/*\n*/vec4//\nmainImage()\x7b\x7d" .image = .error failure ∧
        error ∈ failure.errors ∧ error.line ≠ 0 ∧
        ∃ site : Site (placed .code "/*\n*/vec4//\nmainImage()\x7b\x7d".toList), site.IsFirstWrong ∧
          error.line = if name <:+: site.type then site.typeLine else site.nameLine :=
  ⟨_, _, rejected_commented, List.mem_singleton_self _, by decide,
    wrongSignature_line rejected_commented (List.mem_singleton_self _) (by decide)⟩

/-- A type that has the name in it, on the line in front of the name. -/
private def mistaken : Site (placed .code "mainImages\nmainImage()\x7b\x7d".toList) where
  before := []
  type := "mainImages".toList
  space := asCode ['\n']
  gap := []
  after := asCode ")\x7b\x7d".toList
  whole := by decide
  boundary := rfl
  isWord := ⟨by decide, List.all_eq_true.mp (by decide)⟩
  isType := by decide
  isSpace := by decide
  isGap := by decide

/-- The first declaration with a wrong signature has its name on the second line, but the first
line is reported. -/
theorem not_nameLine_of_type :
    validateEntryPoint "mainImages\nmainImage()\x7b\x7d" .image =
        .error (.single .image 1 Problem.wrongSignature.message) ∧
      ∃ site : Site (placed .code "mainImages\nmainImage()\x7b\x7d".toList),
        site.IsFirstWrong ∧ site.nameLine = 2 := by
  constructor
  · have detected : problem? "mainImages\nmainImage()\x7b\x7d".toList =
        some ⟨1, .wrongSignature⟩ := by
      decide +kernel
    rw [validateEntryPoint, detected]
  · refine ⟨mistaken, ⟨?_, ?_⟩, by decide⟩
    · intro isSigned
      exact absurd isSigned.1 (by decide)
    · intro other inFront
      exact absurd inFront (Nat.not_lt_zero _)

end EntryPoint

end Multipass
