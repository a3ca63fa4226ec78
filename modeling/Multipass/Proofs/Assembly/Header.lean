import Mathlib.Data.List.Induction
import Mathlib.Data.List.Nodup
import Multipass.Assembly.Scaffold
import Multipass.Proofs.Text.Word

/-!
# Lines that the scaffold has instead of the code

The lines that are taken out of the code, told by their spelling: `#version` lines, and lines
that are one precision statement and nothing else. Of the statements, each type is kept once,
in the order of first appearance and with the qualifier that was stated last.
-/

namespace Multipass.Scaffold

open Text

/-! ## The spelling of a line -/

/-- A line that begins with `#version`, blanks allowed around the `#`. -/
def IsVersionLine (line : List Char) : Prop :=
  ∃ indent gap rest, isAllBlank indent = true ∧ isAllBlank gap = true ∧
    line = indent ++ '#' :: (gap ++ ("version".toList ++ rest)) ∧
    ∀ c ∈ rest.head?, isWordChar c = false

/-- A line that is a precision statement. Blanks may stand around its parts, and some must
    stand between its words. -/
def Precision.IsStatedBy (precision : Precision) (line : List Char) : Prop :=
  precision.qualifier ∈ qualifiers ∧ IsWord precision.type ∧
    ∃ indent gap gap' space trail, isAllBlank indent = true ∧
      gap ≠ [] ∧ isAllBlank gap = true ∧ gap' ≠ [] ∧ isAllBlank gap' = true ∧
      isAllBlank space = true ∧ isAllBlank trail = true ∧
      line = indent ++ ("precision".toList ++ (gap ++ (precision.qualifier ++
        (gap' ++ (precision.type ++ (space ++ ';' :: trail))))))

/-- A line that is not left in the code. -/
def IsHeaderLine (line : List Char) : Prop :=
  IsVersionLine line ∨ ∃ precision : Precision, precision.IsStatedBy line

theorem atWordEnd_iff {text : List Char} :
    atWordEnd text = true ↔ ∀ c ∈ text.head?, isWordChar c = false := by
  cases text with
  | nil => simp [atWordEnd]
  | cons c rest => simp [atWordEnd]

theorem isVersionLine_iff {line : List Char} : isVersionLine line = true ↔ IsVersionLine line := by
  constructor
  · intro found
    unfold isVersionLine at found
    split at found
    · rename_i rest trimmed
      obtain ⟨indent, blank, rfl, -⟩ := trimStart_eq_iff.mp trimmed
      obtain ⟨after, keyword, ended⟩ := (Option.any_eq_true _ _).mp found
      obtain ⟨gap, blank', rfl, -⟩ := trimStart_eq_iff.mp (after?_eq_some_iff.mp keyword)
      exact ⟨indent, gap, after, blank, blank', rfl, atWordEnd_iff.mp ended⟩
    · exact absurd found Bool.false_ne_true
  · rintro ⟨indent, gap, rest, blank, blank', rfl, ended⟩
    have marked : trimStart (indent ++ '#' :: (gap ++ ("version".toList ++ rest))) =
        '#' :: (gap ++ ("version".toList ++ rest)) := by
      refine trimStart_eq_iff.mpr ⟨indent, blank, rfl, ?_⟩
      rintro c ⟨⟩
      decide
    have keyword : trimStart (gap ++ ("version".toList ++ rest)) = "version".toList ++ rest := by
      refine trimStart_eq_iff.mpr ⟨gap, blank', rfl, ?_⟩
      rintro c ⟨⟩
      decide
    rw [isVersionLine, marked]
    simp only [keyword, after?_eq_some_iff.mpr rfl, Option.any_some]
    exact atWordEnd_iff.mpr ended

/-- At most one of the qualifiers stands in front of a text. -/
theorem findSome?_qualifiers_iff {text qualifier rest : List Char} :
    (qualifiers.findSome? fun word => (after? word text).map (word, ·)) = some (qualifier, rest) ↔
      qualifier ∈ qualifiers ∧ text = qualifier ++ rest := by
  constructor
  · intro found
    obtain ⟨word, member, here⟩ := List.exists_of_findSome?_eq_some found
    obtain ⟨after, taken, same⟩ := Option.map_eq_some_iff.mp here
    cases same
    exact ⟨member, after?_eq_some_iff.mp taken⟩
  · rintro ⟨member, rfl⟩
    simp only [qualifiers, List.mem_cons, List.not_mem_nil, or_false] at member
    rcases member with rfl | rfl | rfl <;> rfl

theorem head_not_blank_of_qualifier {qualifier rest : List Char} (member : qualifier ∈ qualifiers) :
    ∀ c ∈ (qualifier ++ rest).head?, isBlank c = false := by
  simp only [qualifiers, List.mem_cons, List.not_mem_nil, or_false] at member
  rcases member with rfl | rfl | rfl
  all_goals
    rintro c ⟨⟩
    decide

theorem precisionOfLine?_eq_some_iff {line : List Char} {precision : Precision} :
    precisionOfLine? line = some precision ↔ precision.IsStatedBy line := by
  simp only [precisionOfLine?, Option.bind_eq_bind, Option.bind_eq_some_iff,
    Option.ite_none_right_eq_some, Option.some.injEq, Prod.exists, after?_eq_some_iff,
    trimStart_eq_iff, afterBlanks?_eq_some_iff, findSome?_qualifiers_iff,
    leadingWord?_eq_some_iff]
  constructor
  · rintro ⟨_, ⟨indent, blank, rfl, -⟩, _, ⟨gap, some, blank', rfl, -⟩, qualifier, _,
      ⟨member, rfl⟩, _, ⟨gap', some', blank'', rfl, -⟩, type, _, ⟨rfl, isWord, -⟩, trail,
      ⟨space, blank''', rfl, -⟩, ends, rfl⟩
    exact ⟨member, isWord, indent, gap, gap', space, trail, blank, some, blank', some', blank'',
      blank''', ends, rfl⟩
  · rintro ⟨member, isWord, indent, gap, gap', space, trail, blank, some, blank', some', blank'',
      blank''', ends, rfl⟩
    have semicolon : ∀ c ∈ (space ++ ';' :: trail).head?, isWordChar c = false := by
      intro c head
      cases space with
      | nil =>
        cases head
        decide
      | cons first others =>
        cases head
        exact isWordChar_of_isBlank (List.all_eq_true.mp blank''' c List.mem_cons_self)
    refine ⟨_, ⟨indent, blank, rfl, ?_⟩, _,
      ⟨gap, some, blank', rfl, head_not_blank_of_qualifier member⟩, _, _, ⟨member, rfl⟩, _,
      ⟨gap', some', blank'', rfl, isWord.head_not_blank⟩, _, _, ⟨rfl, isWord, semicolon⟩, trail,
      ⟨space, blank''', rfl, ?_⟩, ends, rfl⟩
    · rintro c ⟨⟩
      decide
    · rintro c ⟨⟩
      decide

theorem precisionOfLine?_of_isVersionLine {line : List Char} (version : isVersionLine line = true) :
    precisionOfLine? line = none := by
  unfold isVersionLine at version
  split at version
  · rename_i rest trimmed
    rw [precisionOfLine?, trimmed]
    rfl
  · exact absurd version Bool.false_ne_true

theorem relocatedLine_of_isHeaderLine {line : List Char} (header : IsHeaderLine line) :
    relocatedLine line = [] := by
  refine if_pos ((Bool.or_eq_true _ _).mpr ?_)
  rcases header with version | ⟨precision, stated⟩
  · exact .inl (isVersionLine_iff.mpr version)
  · exact .inr (precisionOfLine?_eq_some_iff.mpr stated ▸ rfl)

theorem relocatedLine_of_not_isHeaderLine {line : List Char} (plain : ¬ IsHeaderLine line) :
    relocatedLine line = line := by
  refine if_neg fun taken => plain ?_
  rcases (Bool.or_eq_true _ _).mp taken with version | stated
  · exact .inl (isVersionLine_iff.mp version)
  · obtain ⟨precision, found⟩ := Option.isSome_iff_exists.mp stated
    exact .inr ⟨precision, precisionOfLine?_eq_some_iff.mp found⟩

/-! ## One statement for each type -/

/-- The precision statements among the lines of the code. -/
def statements (lines : List (List Char)) : List Precision :=
  lines.filterMap precisionOfLine?

/-- The last statement for a type. -/
def lastStatement? (stated : List Precision) (type : List Char) : Option Precision :=
  (stated.filter (·.type = type)).getLast?

/-- What the head states for a code with the given lines: `float` and `int` come first, the
    other types follow in the order in which the code first states them, and the last
    statement for a type decides. Without one it is `highp`. -/
structure IsHead (lines : List (List Char)) (precisions : List Precision) : Prop where
  types : precisions.map (·.type) = ["float".toList, "int".toList] ++
    ((statements lines).map (·.type)).eraseDups.filter
      (· ∉ ["float".toList, "int".toList])
  nodup : (precisions.map (·.type)).Nodup
  qualifier : ∀ precision ∈ precisions, precision.qualifier =
    ((lastStatement? (statements lines) precision.type).map (·.qualifier)).getD "highp".toList

section Duplicates

variable {α : Type} [BEq α] [LawfulBEq α]

theorem eraseDups_concat (front : List α) (last : α) :
    (front ++ [last]).eraseDups =
      if last ∈ front then front.eraseDups else front.eraseDups ++ [last] := by
  rw [List.eraseDups_append]
  by_cases known : last ∈ front
  · simp [List.removeAll, known]
  · simp [List.removeAll, known, List.eraseDups_cons]

theorem nodup_eraseDups (values : List α) : values.eraseDups.Nodup := by
  induction values using List.reverseRecOn with
  | nil => exact List.nodup_nil
  | append_singleton front last ih =>
    rw [eraseDups_concat]
    split
    · exact ih
    · rename_i new
      refine List.nodup_append.mpr ⟨ih, List.nodup_singleton last, ?_⟩
      rintro value member _ (_ | _) rfl
      · exact new (List.mem_eraseDups.mp member)
      · contradiction

end Duplicates

section Notes

variable {precision other : Precision}

theorem types_notePrecision (noted : List Precision) (precision : Precision) :
    (notePrecision noted precision).map (·.type) =
      if precision.type ∈ noted.map (·.type) then noted.map (·.type)
      else noted.map (·.type) ++ [precision.type] := by
  unfold notePrecision
  by_cases known : precision.type ∈ noted.map (·.type)
  · have found : noted.any (·.type == precision.type) = true := by simpa using known
    rw [if_pos found, if_pos known, List.map_map]
    refine List.map_congr_left fun earlier member => ?_
    show (if earlier.type = precision.type then precision else earlier).type = earlier.type
    split
    · exact Eq.symm ‹_›
    · rfl
  · have new : ¬ noted.any (·.type == precision.type) = true := by simpa using known
    rw [if_neg new, if_neg known, List.map_append]
    rfl

/-- Of the statements for its type only the new one is left, and those for other types stay. -/
theorem mem_notePrecision_iff {noted : List Precision} :
    other ∈ notePrecision noted precision ↔
      other = precision ∨ other ∈ noted ∧ other.type ≠ precision.type := by
  unfold notePrecision
  split
  · rename_i known
    obtain ⟨first, inNoted, same⟩ := List.any_eq_true.mp known
    rw [List.mem_map]
    constructor
    · rintro ⟨earlier, member, rfl⟩
      split
      · exact .inl rfl
      · exact .inr ⟨member, ‹_›⟩
    · rintro (rfl | ⟨member, different⟩)
      · exact ⟨first, inNoted, if_pos (beq_iff_eq.mp same)⟩
      · exact ⟨other, member, if_neg different⟩
  · rename_i new
    rw [List.mem_append, List.mem_singleton]
    constructor
    · rintro (member | rfl)
      · refine .inr ⟨member, fun same => new ?_⟩
        exact List.any_eq_true.mpr ⟨other, member, beq_iff_eq.mpr same⟩
      · exact .inl rfl
    · rintro (rfl | ⟨member, -⟩)
      · exact .inr rfl
      · exact .inl member

theorem types_foldl_notePrecision (stated : List Precision) :
    (stated.foldl notePrecision []).map (·.type) = (stated.map (·.type)).eraseDups := by
  induction stated using List.reverseRecOn with
  | nil => rfl
  | append_singleton front last ih =>
    rw [List.foldl_concat, types_notePrecision, ih, List.map_append, List.map_singleton,
      eraseDups_concat]
    simp only [List.mem_eraseDups]

theorem lastStatement?_concat (front : List Precision) (last : Precision) (type : List Char) :
    lastStatement? (front ++ [last]) type =
      if last.type = type then some last else lastStatement? front type := by
  unfold lastStatement?
  rw [List.filter_append]
  by_cases same : last.type = type
  · simp [same]
  · simp [same]

theorem mem_foldl_notePrecision_iff {stated : List Precision} :
    precision ∈ stated.foldl notePrecision [] ↔
      lastStatement? stated precision.type = some precision := by
  induction stated using List.reverseRecOn with
  | nil => simp [lastStatement?]
  | append_singleton front last ih =>
    rw [List.foldl_concat, mem_notePrecision_iff, ih, lastStatement?_concat]
    by_cases same : last.type = precision.type
    · rw [if_pos same, Option.some.injEq]
      constructor
      · rintro (rfl | ⟨-, different⟩)
        · rfl
        · exact absurd same.symm different
      · exact fun isLast => .inl isLast.symm
    · rw [if_neg same]
      constructor
      · rintro (rfl | ⟨found, -⟩)
        · exact absurd rfl same
        · exact found
      · exact fun found => .inr ⟨found, Ne.symm same⟩

theorem find?_foldl_notePrecision (stated : List Precision) (type : List Char) :
    (stated.foldl notePrecision []).find? (·.type == type) = lastStatement? stated type := by
  cases found : (stated.foldl notePrecision []).find? (·.type == type) with
  | some precision =>
    have matching := List.find?_some found
    have same : precision.type = type := beq_iff_eq.mp matching
    rw [← same]
    exact (mem_foldl_notePrecision_iff.mp (List.mem_of_find?_eq_some found)).symm
  | none =>
    cases last : lastStatement? stated type with
    | none => rfl
    | some precision =>
      have same : precision.type = type := by
        simpa using (List.mem_filter.mp (List.mem_of_getLast? last)).2
      have noted := mem_foldl_notePrecision_iff.mpr (same ▸ last)
      exact absurd (beq_iff_eq.mpr same) (List.find?_eq_none.mp found precision noted)

end Notes

theorem statedPrecisions_eq (lines : List (List Char)) :
    statedPrecisions lines = (statements lines).foldl notePrecision [] := by
  unfold statedPrecisions statements
  rw [List.filterMap_filter]
  congr 1
  refine List.filterMap_congr fun line _ => ?_
  split
  · rfl
  · rename_i version
    exact (precisionOfLine?_of_isVersionLine (by simpa using version)).symm

theorem types_defaultPrecisions :
    defaultPrecisions.map (·.type) = ["float".toList, "int".toList] := rfl

theorem any_defaultPrecisions (type : List Char) :
    (!defaultPrecisions.any (·.type == type)) = decide (type ∉ defaultPrecisions.map (·.type)) := by
  rw [Bool.eq_iff_iff]
  simp only [Bool.not_eq_true', List.any_eq_false, beq_iff_eq, decide_eq_true_eq, List.mem_map,
    not_exists, not_and]

/-- The statement of the head for a type for which it has one in any case. -/
theorem headPrecisions_default {default : Precision} (member : default ∈ defaultPrecisions)
    (last? : Option Precision) (same : ∀ last ∈ last?, last.type = default.type) :
    (last?.getD default).type = default.type ∧
      (last?.getD default).qualifier = (last?.map (·.qualifier)).getD "highp".toList := by
  cases last? with
  | some last => exact ⟨same last rfl, rfl⟩
  | none =>
    refine ⟨rfl, ?_⟩
    simp only [defaultPrecisions, List.mem_cons, List.not_mem_nil, or_false] at member
    rcases member with rfl | rfl <;> rfl

theorem type_of_lastStatement? {stated : List Precision} {type : List Char} :
    ∀ last ∈ lastStatement? stated type, last.type = type := by
  intro last found
  simpa using (List.mem_filter.mp (List.mem_of_getLast? found)).2

theorem headPrecisions_isHead (lines : List (List Char)) :
    IsHead lines (headPrecisions (statedPrecisions lines)) := by
  have defaults : ((defaultPrecisions.map fun default =>
      ((statedPrecisions lines).find? (·.type == default.type)).getD default).map (·.type)) =
      ["float".toList, "int".toList] := by
    rw [List.map_map]
    refine Eq.trans (List.map_congr_left fun default member => ?_) types_defaultPrecisions
    rw [Function.comp_apply, statedPrecisions_eq, find?_foldl_notePrecision]
    exact (headPrecisions_default member _ type_of_lastStatement?).1
  have others : ((statedPrecisions lines).filter fun precision =>
        !defaultPrecisions.any (·.type == precision.type)).map (·.type) =
      ((statements lines).map (·.type)).eraseDups.filter
        (· ∉ ["float".toList, "int".toList]) := by
    rw [statedPrecisions_eq, ← types_foldl_notePrecision, List.filter_map]
    congr 1
    refine List.filter_congr fun precision _ => ?_
    rw [any_defaultPrecisions, types_defaultPrecisions]
    rfl
  have types : (headPrecisions (statedPrecisions lines)).map (·.type) =
      ["float".toList, "int".toList] ++ ((statements lines).map (·.type)).eraseDups.filter
        (· ∉ ["float".toList, "int".toList]) := by
    rw [headPrecisions, List.map_append, defaults, others]
  refine ⟨types, ?_, ?_⟩
  · rw [types]
    refine List.nodup_append.mpr ⟨by decide, (nodup_eraseDups _).filter _, ?_⟩
    rintro type default _ other rfl
    exact of_decide_eq_true (List.mem_filter.mp other).2 default
  · intro precision member
    rcases List.mem_append.mp member with ofDefault | ofOther
    · obtain ⟨default, isDefault, rfl⟩ := List.mem_map.mp ofDefault
      rw [statedPrecisions_eq, find?_foldl_notePrecision]
      obtain ⟨same, qualifier⟩ := headPrecisions_default isDefault
        (lastStatement? (statements lines) default.type) type_of_lastStatement?
      rw [same, qualifier]
    · have stated := (List.mem_filter.mp ofOther).1
      rw [statedPrecisions_eq] at stated
      rw [mem_foldl_notePrecision_iff.mp stated]
      rfl

/-- A code that states nothing gets the default statements. -/
theorem IsHead.eq_default {lines : List (List Char)} {precisions : List Precision}
    (isHead : IsHead lines precisions) (none : statements lines = []) :
    precisions = defaultPrecisions := by
  have types := isHead.types
  have qualifiers := isHead.qualifier
  rw [none] at types qualifiers
  calc precisions
      = precisions.map fun precision => ⟨precision.type, "highp".toList⟩ := by
        refine (List.map_id precisions).symm.trans (List.map_congr_left fun precision member => ?_)
        exact congrArg (Precision.mk precision.type) (qualifiers precision member)
    _ = (precisions.map (·.type)).map (⟨·, "highp".toList⟩) := by
        rw [List.map_map]
        rfl
    _ = defaultPrecisions := by
        rw [types]
        rfl

end Multipass.Scaffold
