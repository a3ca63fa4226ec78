import Multipass.Proofs.Macro.Characters
import Multipass.Proofs.Macro.Finished
import Multipass.Proofs.Macro.Parts

/-!
# Joined parts

A body falls into parts with `##` between them. In a call each part gets its arguments, and then
the parts are put together without the spaces and tabs next to the joints. A macro without
parameters is not called, so its parts are never put together.
-/

namespace Multipass.Macro

/-- Parts with a joint between any two of them. -/
def glued (first : List Char) : List (List Char) → List Char
  | [] => first
  | next :: rest => first ++ '#' :: '#' :: glued next rest

/-- Parts put together, without the spaces and tabs on both sides of a joint. -/
def welded (first : List Char) : List (List Char) → List Char
  | [] => first
  | next :: rest =>
    Text.dropTrailing Text.isSpaceOrTab first ++ welded (next.dropWhile Text.isSpaceOrTab) rest

/-! ## Joints -/

section Joints

variable {front text : List Char}

theorem afterJoin?_append_joint (blank : ∀ c ∈ front, Text.isSpaceOrTab c = true)
    (back : List Char) :
    afterJoin? (front ++ '#' :: '#' :: back) = some (back.dropWhile Text.isSpaceOrTab) := by
  rw [afterJoin?, Text.dropWhile_append_of_boundary blank (by rintro c ⟨⟩; rfl)]
  rfl

theorem afterJoin?_append_of_visible (visible : ∃ c ∈ front, ¬ Text.isSpaceOrTab c = true)
    (absent : '#' ∉ front) (back : List Char) : afterJoin? (front ++ back) = none := by
  obtain ⟨d, more, cut⟩ : ∃ d more, front.dropWhile Text.isSpaceOrTab = d :: more := by
    refine List.exists_cons_of_ne_nil fun nothing => ?_
    obtain ⟨c, member, stays⟩ := visible
    exact stays (List.dropWhile_eq_nil_iff.mp nothing c member)
  have noSign : d ≠ '#' := by
    rintro rfl
    exact absent ((List.dropWhile_sublist _).subset (cut ▸ List.mem_cons_self))
  rw [afterJoin?, List.dropWhile_append, cut, List.isEmpty_cons, if_neg Bool.false_ne_true,
    List.cons_append]
  split
  · rename_i same
    exact absurd (List.cons.inj same).1 noSign
  · rfl

theorem paste_of_joint {after : List Char} (joined : afterJoin? text = some after) :
    paste text = paste after := by
  cases text with
  | nil => cases joined
  | cons c rest =>
    rw [paste]
    split
    · rename_i found
      cases joined.symm.trans found
      rfl
    · rename_i missing
      cases joined.symm.trans missing

theorem paste_of_visible {c : Char} {rest : List Char} (stays : afterJoin? (c :: rest) = none) :
    paste (c :: rest) = c :: paste rest := by
  rw [paste]
  split
  · rename_i found
    cases stays.symm.trans found
  · rfl

theorem paste_of_notMem (absent : '#' ∉ text) : paste text = text := by
  induction text with
  | nil => rw [paste]
  | cons c rest ih =>
    have stays : afterJoin? (c :: rest) = none := by
      unfold afterJoin?
      split
      · rename_i later signs
        have inside : ('#' :: '#' :: later).Sublist (c :: rest) := signs ▸ List.dropWhile_sublist _
        exact absurd (inside.subset List.mem_cons_self) absent
      · rfl
    rw [paste_of_visible stays, ih fun later => absent (List.mem_cons_of_mem c later)]

/-- The first joint of a text goes, with the spaces and tabs on both sides. -/
theorem paste_append_joint (absent : '#' ∉ front) (back : List Char) :
    paste (front ++ '#' :: '#' :: back) =
      Text.dropTrailing Text.isSpaceOrTab front ++ paste (back.dropWhile Text.isSpaceOrTab) := by
  induction front with
  | nil =>
    have blank : ∀ c ∈ ([] : List Char), Text.isSpaceOrTab c = true := by simp
    exact paste_of_joint (afterJoin?_append_joint blank back)
  | cons c rest ih =>
    cases blank : (c :: rest).all Text.isSpaceOrTab with
    | true =>
      have all := List.all_eq_true.mp blank
      rw [paste_of_joint (afterJoin?_append_joint all back), Text.dropTrailing_eq_nil_iff.mpr all,
        List.nil_append]
    | false =>
      have visible := List.all_eq_false.mp blank
      have kept : Text.dropTrailing Text.isSpaceOrTab (c :: rest) =
          c :: Text.dropTrailing Text.isSpaceOrTab rest := by
        rw [← List.singleton_append, Text.dropTrailing_append]
        split
        · rename_i nothing
          have first : ¬ Text.isSpaceOrTab c = true := by
            intro here
            obtain ⟨d, member, stays⟩ := visible
            rcases List.mem_cons.mp member with rfl | later
            · exact stays here
            · exact stays (Text.dropTrailing_eq_nil_iff.mp nothing d later)
          rw [nothing]
          exact Text.dropTrailing_concat (Bool.eq_false_iff.mpr first) []
        · rfl
      have stays : afterJoin? (c :: (rest ++ '#' :: '#' :: back)) = none :=
        afterJoin?_append_of_visible visible absent _
      rw [List.cons_append, paste_of_visible stays,
        ih fun later => absent (List.mem_cons_of_mem c later), kept, List.cons_append]

theorem paste_glued {first : List Char} {others : List (List Char)}
    (absent : ∀ part ∈ first :: others, '#' ∉ part) :
    paste (glued first others) = welded first others := by
  induction others generalizing first with
  | nil => exact paste_of_notMem (absent first List.mem_cons_self)
  | cons next rest ih =>
    have begins : (glued next rest).dropWhile Text.isSpaceOrTab =
        glued (next.dropWhile Text.isSpaceOrTab) rest := by
      cases rest with
      | nil => rfl
      | cons => exact Text.dropWhile_append_cons rfl _ _
    rw [glued, welded, paste_append_joint (absent first List.mem_cons_self), begins, ih]
    intro part member
    rcases List.mem_cons.mp member with rfl | later
    · intro sign
      exact absent next (by simp) ((List.dropWhile_sublist _).subset sign)
    · exact absent part (by simp [later])

end Joints

/-! ## Parts with their arguments -/

section Filling

variable {parameters arguments : List (List Char)}

theorem filled_glued (first : List Char) (others : List (List Char)) :
    filled parameters arguments (glued first others) =
      glued (filled parameters arguments first) (others.map (filled parameters arguments)) := by
  induction others generalizing first with
  | nil => rfl
  | cons next rest ih =>
    rw [glued, filled_append_cons rfl, filled_of_gap rfl, ih]
    rfl

/-- In a call the parts of a body get their arguments and are put together. -/
theorem substitute_glued {first : List Char} {others : List (List Char)}
    (absent : ∀ part ∈ first :: others, '#' ∉ part)
    (given : ∀ argument ∈ arguments, '#' ∉ argument) :
    substitute parameters arguments (glued first others) =
      welded (filled parameters arguments first) (others.map (filled parameters arguments)) := by
  rw [substitute_eq, filled_glued, paste_glued]
  rw [← List.map_cons]
  intro part member
  obtain ⟨source, ofBody, rfl⟩ := List.mem_map.mp member
  exact notMem_filled (absent source ofBody) given

end Filling

/-! ## Macros that join parts in calls -/

theorem notMem_welded {c : Char} {first : List Char} {others : List (List Char)}
    (absent : ∀ part ∈ first :: others, c ∉ part) : c ∉ welded first others := by
  induction others generalizing first with
  | nil => exact absent first List.mem_cons_self
  | cons next rest ih =>
    refine notMem_append (fun member => ?_) (ih fun part member => ?_)
    · exact absent first List.mem_cons_self (Text.dropTrailing_subset _ _ member)
    · rcases List.mem_cons.mp member with rfl | later
      · intro inPart
        exact absent next (by simp) ((List.dropWhile_sublist _).subset inPart)
      · exact absent part (by simp [later])

/-- Does a macro join parts in calls, if at all, and has its body no other sign? -/
def Definition.JoinsInCalls (definition : Definition) : Prop :=
  match definition.parameters with
  | none => '#' ∉ definition.body
  | some _ => ∃ first others, (∀ part ∈ first :: others, '#' ∉ part) ∧
      definition.body = glued first others

theorem Definition.JoinsInCalls.keepsOut {definition : Definition}
    (joins : definition.JoinsInCalls) : definition.KeepsOut '#' := by
  obtain ⟨parameters, body, line⟩ := definition
  cases parameters with
  | none => exact joins
  | some parameters =>
    intro arguments given
    obtain ⟨first, others, absent, glues⟩ := joins
    rw [show body = glued first others from glues, substitute_glued absent given]
    refine notMem_welded fun part member => ?_
    rw [← List.map_cons] at member
    obtain ⟨source, ofBody, rfl⟩ := List.mem_map.mp member
    exact notMem_filled (absent source ofBody) given

/-- Do the macros of a table join parts in calls only? -/
def Table.JoinsInCalls (table : Table) : Prop :=
  ∀ name definition, table.find? name = some definition → definition.JoinsInCalls

theorem Table.JoinsInCalls.keepsOut {table : Table} (joins : table.JoinsInCalls) :
    table.KeepsOut '#' :=
  fun name definition found => (joins name definition found).keepsOut

/-- A text that begins with a call: the parameters and the body of the macro, the values of the
    arguments, which are expanded one level deeper, and what follows the call. -/
inductive Table.Calls (table : Table) (levels : Nat) :
    List Char → List (List Char) → List Char → List (List Char) → List Char → Prop where
  | intro {c : Char} {rest name after body afterCall : List Char}
      {parameters written values : List (List Char)} {line : Nat} :
      Text.leadingLexeme c rest = (.name name, after) →
      table.find? name = some ⟨some parameters, body, line⟩ →
      arguments? after = some (written, afterCall) →
      (callArguments parameters written).length = parameters.length →
      (callArguments parameters written).mapM
        (fun argument => expandWithin table levels (Text.trim argument)) = .ok values →
      Table.Calls table levels (c :: rest) parameters body values afterCall

/-- A text that begins with a call becomes the parts of the body, with the values of the arguments
    and put together. That is expanded in its turn, and what follows the call goes behind it. -/
def Table.BecomesParts (table : Table) (levels : Nat) (text : List Char)
    (parameters : List (List Char)) (body : List Char) (values : List (List Char))
    (afterCall : List Char) : Prop :=
  ∃ first others, (∀ part ∈ first :: others, '#' ∉ part) ∧ body = glued first others ∧
    expandWithin table (levels + 1) text =
      expandWithin table levels (welded (filled parameters values first)
        (others.map (filled parameters values))) >>=
      fun expansion => (expansion ++ ·) <$> expandWithin table (levels + 1) afterCall

/-- A call in a text without signs has the parts of its body put together. -/
theorem expandWithin_of_calls {table : Table} {levels : Nat} {text body afterCall : List Char}
    {parameters values : List (List Char)} (joins : table.JoinsInCalls) (absent : '#' ∉ text)
    (calls : table.Calls levels text parameters body values afterCall) :
    table.BecomesParts levels text parameters body values afterCall := by
  obtain ⟨begins, found, called, arity, ofArguments⟩ := calls
  rename_i c rest name after written line
  obtain ⟨first, others, plain, rfl⟩ := joins _ _ found
  have inAfter : '#' ∉ after := (notMem_lexeme begins absent).2
  have given : ∀ value ∈ values, '#' ∉ value :=
    (expandWithin_keeps joins.keepsOut levels).values inAfter called ofArguments
  refine ⟨first, others, plain, rfl, ?_⟩
  rw [← substitute_glued plain given]
  exact scan_of_called begins found called arity ofArguments

end Multipass.Macro
