import Multipass.Json.Record
import Multipass.Proofs.Json.Text

/-!
# Written records are read back

An object is written with a line for each member. A record that takes its members in, one after
another, is read from it, whatever comes after the object.
-/

namespace Multipass.Json

variable {σ α β : Type}

/-! ## Steps of a reader -/

namespace Reader

variable {text rest : List Char} {value : α}

theorem run_bind_of_ok {reader : Reader α} (read : reader.run text = .ok (value, rest))
    (next : α → Reader β) : (reader >>= next).run text = (next value).run rest := by
  rw [run_bind, read]

theorem run_map_of_ok {reader : Reader α} (read : reader.run text = .ok (value, rest))
    (f : α → β) : (f <$> reader).run text = .ok (f value, rest) :=
  run_bind_of_ok read (fun value => pure (f value))

theorem run_peek (next : Option Char → Reader α) {c : Char}
    (begins : skipBlanks text = c :: rest) :
    (peek next).run text = (next (some c)).run (c :: rest) := by
  show (next (skipBlanks text).head?).run (skipBlanks text) = _
  rw [begins]
  rfl

theorem run_advance (c : Char) (rest : List Char) :
    advance.run (c :: rest) = .ok ((), rest) := rfl

end Reader

/-! ## Blanks -/

theorem skipBlanks_cons {c : Char} (notBlank : isBlank c = false) (rest : List Char) :
    skipBlanks (c :: rest) = c :: rest := by
  rw [skipBlanks, List.dropWhile_cons, notBlank]
  rfl

theorem isBlank_of_mem_newLine {depth : Nat} {c : Char} (member : c ∈ newLine depth) :
    isBlank c = true := by
  rcases List.mem_cons.mp member with rfl | indented
  · rfl
  · rw [List.eq_of_mem_replicate indented]
    rfl

theorem skipBlanks_newLine (depth : Nat) {c : Char} (notBlank : isBlank c = false)
    (rest : List Char) : skipBlanks (newLine depth ++ c :: rest) = c :: rest := by
  rw [skipBlanks, List.dropWhile_append_of_pos fun _ => isBlank_of_mem_newLine, ← skipBlanks,
    skipBlanks_cons notBlank]

/-! ## Members -/

theorem textLiteral_append (text : String) (rest : List Char) :
    textLiteral text ++ rest = '"' :: (text.toList.flatMap escapeChar ++ '"' :: rest) := by
  rw [textLiteral, List.cons_append, List.cons_append, List.append_assoc, List.singleton_append]

theorem skipBlanks_textLiteral (text : String) (rest : List Char) :
    skipBlanks (textLiteral text ++ rest) = textLiteral text ++ rest := by
  rw [textLiteral_append, skipBlanks_cons rfl]

section Scalars

variable {source rest : List Char} {value : String}

theorem text_run (begins : skipBlanks source = textLiteral value ++ rest) :
    text.run source = .ok (value, rest) := by
  rw [textLiteral_append] at begins
  have quoted : (textAs "a string").run source = .ok (value.toList, rest) := by
    rw [textAs, Reader.run_peek _ begins]
    exact textTail_flatMap_escapeChar value.toList rest
  rw [text, Reader.run_map_of_ok quoted, String.ofList_toList]

theorem optional_text_run (begins : skipBlanks source = textLiteral value ++ rest) :
    (optional text).run source = .ok (some value, rest) := by
  have again : text.run (textLiteral value ++ rest) = .ok (value, rest) :=
    text_run (skipBlanks_textLiteral value rest)
  rw [textLiteral_append] at begins again
  rw [optional, Reader.run_peek _ begins]
  exact Reader.run_map_of_ok again some

end Scalars

theorem key?_first (depth : Nat) (name : String) (rest : List Char) :
    key? true (newLine depth ++ (textLiteral name ++ rest)) = .ok (some name.toList, rest) := by
  rw [textLiteral_append, key?, skipBlanks_newLine depth rfl]
  simp [textTail_flatMap_escapeChar, Except.map]

theorem key?_next (depth : Nat) (name : String) (rest : List Char) :
    key? false (',' :: (newLine depth ++ (textLiteral name ++ rest))) =
      .ok (some name.toList, rest) := by
  rw [textLiteral_append, key?, skipBlanks_cons rfl]
  simp [skipBlanks_newLine depth (show isBlank '"' = false from rfl), textTail_flatMap_escapeChar,
    Except.map]

theorem key?_end (first : Bool) (depth : Nat) (rest : List Char) :
    key? first (newLine depth ++ '}' :: rest) = .ok (none, '}' :: rest) := by
  rw [key?, skipBlanks_newLine depth rfl]
  rfl

/-- A record takes a member in: its field has no value yet, and reads the value wherever it is
    written. -/
def Takes (fields : List (Field σ)) (state : σ) (member : String × Value) (next : σ) : Prop :=
  ∃ field, fields.find? (·.answersTo member.1.toList) = some field ∧ field.isSet state = false ∧
    ∀ depth rest, (field.read state).run (' ' :: (member.2.render depth ++ rest)) = .ok (next, rest)

/-- A record takes members in, one after another. -/
inductive TakesAll (fields : List (Field σ)) : σ → List (String × Value) → σ → Prop where
  | nil (state : σ) : TakesAll fields state [] state
  | cons {state next final : σ} {member : String × Value} {members : List (String × Value)} :
      Takes fields state member next → TakesAll fields next members final →
      TakesAll fields state (member :: members) final

section Members

variable {fields : List (Field σ)} {state next final : σ} {member : String × Value}
  {front back : List (String × Value)}

theorem TakesAll.append (first : TakesAll fields state front next)
    (second : TakesAll fields next back final) : TakesAll fields state (front ++ back) final := by
  induction first with
  | nil => exact second
  | cons takes _ ih => exact .cons takes (ih second)

theorem TakesAll.single (takes : Takes fields state member next) :
    TakesAll fields state [member] next :=
  .cons takes (.nil next)

theorem fieldValue_run (takes : Takes fields state member next) (depth : Nat) (rest : List Char) :
    (fieldValue fields state member.1.toList).run
      (':' :: ' ' :: (member.2.render depth ++ rest)) = .ok (next, rest) := by
  obtain ⟨field, found, unset, reads⟩ := takes
  have colon : Reader.colon.run (':' :: ' ' :: (member.2.render depth ++ rest)) =
      .ok ((), ' ' :: (member.2.render depth ++ rest)) := rfl
  rw [fieldValue, found]
  simp only [unset]
  exact (Reader.run_bind_of_ok colon _).trans (reads depth rest)

/-- After a key whose member is taken in, the other members are read. -/
theorem members_of_key {first : Bool} {text : List Char} (takes : Takes fields state member next)
    {depth : Nat} {rest : List Char}
    (key : key? first text =
      .ok (some member.1.toList, ':' :: ' ' :: (member.2.render depth ++ rest))) :
    members fields first state text = members fields false next rest := by
  rw [members]
  split
  · rename_i problem failed
    rw [key] at failed
    cases failed
  · rename_i after ended
    rw [key] at ended
    cases ended
  · rename_i name after found
    rw [key] at found
    cases found
    split
    · rename_i problem failed
      rw [fieldValue_run takes] at failed
      cases failed
    · rename_i later remaining read
      rw [fieldValue_run takes] at read
      cases read
      rfl

theorem members_end {first : Bool} {text rest : List Char} (ended : key? first text = .ok (none, rest)) :
    members fields first state text = .ok (state, rest) := by
  rw [members]
  split
  · rename_i problem failed
    rw [ended] at failed
    cases failed
  · rename_i after ended'
    rw [ended] at ended'
    cases ended'
    rfl
  · rename_i name after found
    rw [ended] at found
    cases found

theorem members_renderMembers (takes : TakesAll fields state back final) (depth : Nat)
    (rest : List Char) :
    members fields false state
      (Value.renderMembers (depth + 1) back ++ (newLine depth ++ '}' :: rest)) =
        .ok (final, '}' :: rest) := by
  induction takes with
  | nil state =>
    rw [Value.renderMembers, List.nil_append]
    exact members_end (key?_end false depth rest)
  | @cons state next final member members takes _ ih =>
    have key := key?_next (depth + 1) member.1 (':' :: ' ' :: (member.2.render (depth + 1) ++
      (Value.renderMembers (depth + 1) members ++ (newLine depth ++ '}' :: rest))))
    rw [Value.renderMembers]
    simp only [List.cons_append, List.append_assoc]
    rw [members_of_key takes key, ih]

/-- The members of an object are read up to its closing brace. -/
theorem members_render (takes : TakesAll fields state front final) (depth : Nat)
    (rest : List Char) :
    ∃ inside, Value.render depth (.object front) ++ rest = '{' :: inside ∧
      members fields true state inside = .ok (final, '}' :: rest) := by
  cases takes with
  | nil => exact ⟨'}' :: rest, rfl, members_end rfl⟩
  | @cons state next final member later takes takesLater =>
    refine ⟨newLine (depth + 1) ++ (textLiteral member.1 ++ ':' :: ' ' ::
      (member.2.render (depth + 1) ++ (Value.renderMembers (depth + 1) later ++
        (newLine depth ++ '}' :: rest)))), ?_, ?_⟩
    · simp only [Value.render, List.cons_append, List.append_assoc, List.nil_append]
    · rw [members_of_key takes (key?_first (depth + 1) member.1 _), members_renderMembers takesLater]

end Members

/-! ## Records -/

theorem settle_run_of_ok (leave : List Char → List Char) {reader : Reader α} {text : List Char}
    {result : α × List Char} (read : reader.run text = .ok result) :
    (settle leave reader).run text = .ok result := by
  simp only [settle, read]

section Records

variable {shape : Shape σ α} {final : σ} {value : α} {members : List (String × Value)}

/-- A record is read from an object whose members it takes in. -/
theorem record_run (takes : TakesAll shape.fields shape.initial members final)
    (finishes : shape.finish final = .ok value) (depth : Nat) (after : List Char) :
    (record shape).run (Value.render depth (.object members) ++ after) = .ok (value, after) := by
  obtain ⟨inside, rendered, read⟩ := members_render takes depth after
  have readMembers : (membersReader shape.fields shape.initial).run inside =
      .ok (final, '}' :: after) := read
  have completed : (finished shape final).run ('}' :: after) = .ok (value, '}' :: after) := by
    rw [finished, finishes]
    rfl
  rw [rendered, record, Reader.run_peek _ (skipBlanks_cons rfl _)]
  refine settle_run_of_ok leaveObject ?_
  rw [Reader.run_bind_of_ok (Reader.run_advance _ _), Reader.run_bind_of_ok readMembers,
    Reader.run_bind_of_ok completed, Reader.run_bind_of_ok (Reader.run_advance _ _)]
  rfl

/-- A document that was written is read back. -/
theorem readDocument_pretty (takes : TakesAll shape.fields shape.initial members final)
    (finishes : shape.finish final = .ok value) :
    readDocument (record shape) (Value.object members).pretty.toList = .ok value := by
  have read := record_run takes finishes 0 []
  rw [List.append_nil] at read
  rw [readDocument, Value.pretty, String.toList_ofList, read]
  rfl

end Records

end Multipass.Json
