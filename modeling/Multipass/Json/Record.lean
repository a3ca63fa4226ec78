import Multipass.Json.Scalar

/-!
# Records

A record is written as an object with a key for each field, or as a list of its fields
in order. In an object the order does not matter, unknown keys are passed over, and a
field may not be given twice. In a list, a field that is not there must have a default.
-/

namespace Multipass.Json

variable {σ α : Type}

/-- A field of a record that is read into a state of type `σ`. -/
structure Field (σ : Type) where
  name : String
  aliases : List String
  isSet : σ → Bool
  read : σ → Reader σ
  hasDefault : Bool

/-- A field that is read into an optional component of the state. -/
def Field.of (name : String) (reader : Reader α) (get : σ → Option α) (set : σ → α → σ)
    (hasDefault : Bool) : Field σ :=
  ⟨name, [], fun state => (get state).isSome, fun state => set state <$> reader, hasDefault⟩

/-- Is this key the name of the field, or another name of it? -/
def Field.answersTo (field : Field σ) (key : List Char) : Bool :=
  (field.name :: field.aliases).any (·.toList == key)

/-- A record: its name in messages, its fields, and its value once they are read, or the
    name of a field that is missing. -/
structure Shape (σ α : Type) where
  title : String
  fields : List (Field σ)
  initial : σ
  finish : σ → Except String α

/-- A fault of the record itself. Its place is settled when the record is left. -/
def misshapen (fault : ShapeFault) : Reader α :=
  .fail (.misshapen fault) .unsettled

/-- Is there another element in a list? `first` says that none was read yet. -/
def anotherElement (first : Bool) : Reader Bool :=
  .peek fun
    | none => .malformed .endInList
    | some ']' => return false
    | some c =>
      if c = ',' && !first then do
        .advance
        .peek fun
          | none => .malformed .endInValue
          | some ']' => .malformed .trailingComma
          | some _ => return true
      else if first then return true
      else .malformed .expectedCommaOrListEnd

/-- Read fields from a list, from the given index on. -/
def elements (title : String) (count : Nat) : List (Field σ) → Nat → Bool → σ → Reader σ
  | [], _, _, state => return state
  | field :: rest, index, first, state => do
    if ← anotherElement first then
      elements title count rest (index + 1) false (← field.read state)
    else if field.hasDefault then elements title count rest (index + 1) first state
    else misshapen (.wrongLength index s!"{title} with {count} elements")

/-- The end of a list. -/
def endOfList : Reader Unit :=
  .peek fun
    | none => .malformed .endInList
    | some ']' => .advance
    | some ',' => do
      .advance
      .peek fun
        | some ']' => .malformed .trailingComma
        | _ => .malformed .trailingCharacters
    | some _ => .malformed .trailingCharacters

/-- The next key of an object, if there is one. `first` says that none was read yet. -/
def key? (first : Bool) (text : List Char) : Result (Option (List Char)) :=
  match skipBlanks text with
  | [] => faultAfter .endInObject []
  | c :: rest =>
    if c = '}' then .ok (none, c :: rest)
    else if c = ',' && !first then
      match skipBlanks rest with
      | [] => faultAfter .endInValue []
      | '"' :: rest => (textTail rest).map fun (key, after) => (some key, after)
      | '}' :: rest => faultAfter .trailingComma ('}' :: rest)
      | rest => faultAfter .keyNotText rest
    else if !first then faultAfter .expectedCommaOrObjectEnd (c :: rest)
    else if c = '"' then (textTail rest).map fun (key, after) => (some key, after)
    else faultAfter .keyNotText (c :: rest)

theorem key?_shorter {first : Bool} {text key rest : List Char}
    (read : key? first text = .ok (some key, rest)) : rest.length < text.length := by
  have tail : ∀ {source : List Char}, (textTail source).map (fun (key, after) => (some key, after)) =
      .ok (some key, rest) → rest.length ≤ source.length := by
    intro source same
    cases taken : textTail source with
    | error problem => simp [taken, Except.map] at same
    | ok result =>
      simp only [taken, Except.map, Except.ok.injEq, Prod.mk.injEq] at same
      rw [← same.2]
      exact @textTail_length_le _ result.2 result.1 taken
  have bound := skipBlanks_length_le text
  unfold key? faultAfter at read
  split at read
  · simp at read
  · rename_i c after here
    rw [here, List.length_cons] at bound
    split at read
    · simp at read
    · split at read
      · have inner := skipBlanks_length_le after
        split at read
        · simp at read
        · rename_i later taken
          rw [taken, List.length_cons] at inner
          have := tail read
          omega
        · simp at read
        · simp at read
      · split at read
        · simp at read
        · split at read
          · have := tail read
            omega
          · simp at read

/-- Pass over a value. -/
def ignored : Reader Unit :=
  ⟨skipInside false [], skipInside_length_le⟩

/-- Read the value for a key. -/
def fieldValue (fields : List (Field σ)) (state : σ) (key : List Char) : Reader σ :=
  match fields.find? (·.answersTo key) with
  | some field =>
    if field.isSet state then misshapen (.duplicateField field.name)
    else do .colon; field.read state
  | none => do .colon; ignored; return state

/-- Read the fields of an object up to its closing brace. -/
def members (fields : List (Field σ)) (first : Bool) (state : σ) (text : List Char) :
    Result σ :=
  match found : key? first text with
  | .error problem => .error problem
  | .ok (none, rest) => .ok (state, rest)
  | .ok (some key, rest) =>
    match read : (fieldValue fields state key).run rest with
    | .error problem => .error problem
    | .ok (state, after) =>
      have : after.length < text.length :=
        Nat.lt_of_le_of_lt ((fieldValue fields _ key).bound read) (key?_shorter found)
      members fields false state after
  termination_by text.length

theorem key?_length_le {first : Bool} {text rest : List Char}
    (read : key? first text = .ok (none, rest)) : rest.length ≤ text.length := by
  have tail : ∀ source : List Char, (textTail source).map (fun (key, after) => (some key, after)) ≠
      .ok (none, rest) := by
    intro source same
    cases taken : textTail source <;> simp [taken, Except.map] at same
  have bound := skipBlanks_length_le text
  unfold key? faultAfter at read
  split at read
  · simp at read
  · rename_i c after here
    split at read
    · simp only [Except.ok.injEq, Prod.mk.injEq, true_and] at read
      rw [← read, ← here]; exact bound
    · split at read
      · split at read
        · simp at read
        · exact absurd read (tail _)
        · simp at read
        · simp at read
      · split at read
        · simp at read
        · split at read
          · exact absurd read (tail _)
          · simp at read

theorem members_length_le {fields : List (Field σ)} {first : Bool} {state value : σ}
    {text rest : List Char} (read : members fields first state text = .ok (value, rest)) :
    rest.length ≤ text.length := by
  fun_induction members fields first state text with
  | case1 => simp at read
  | case2 first state text after found =>
    simp only [Except.ok.injEq, Prod.mk.injEq] at read
    rw [← read.2]; exact key?_length_le found
  | case3 => simp at read
  | case4 first state text key after found state' last _ shorter ih =>
    exact Nat.le_of_lt (Nat.lt_of_le_of_lt (ih read) shorter)

/-- Read the members of an object into a state, up to its closing brace. -/
def membersReader (fields : List (Field σ)) (state : σ) : Reader σ :=
  ⟨members fields true state, members_length_le⟩

/-- Pass over what closes an object, as far as it is there. -/
def leaveObject (text : List Char) : List Char :=
  match skipBlanks text with
  | '}' :: rest => rest
  | rest => rest

/-- Pass over what closes a list, as far as it is there. -/
def leaveList (text : List Char) : List Char :=
  match skipBlanks text with
  | ']' :: rest => rest
  | ',' :: rest => skipBlanks rest
  | rest => rest

/-- Settle the place of a fault of a record. -/
def settle (leave : List Char → List Char) (reader : Reader α) : Reader α where
  run text :=
    match reader.run text with
    | .error problem =>
      .error (if problem.mark = .unsettled then ⟨problem.fault, leave problem.unread, .here⟩
        else problem)
    | .ok result => .ok result
  bound := by
    intro text rest value same
    split at same
    · simp at same
    · rename_i result read
      simp only [Except.ok.injEq] at same
      exact reader.bound (read.trans (congrArg _ same))

/-- The value of a record whose fields were read. -/
def finished (shape : Shape σ α) (state : σ) : Reader α :=
  match shape.finish state with
  | .ok value => return value
  | .error name => misshapen (.missingField name)

/-- Read a record. -/
def record (shape : Shape σ α) : Reader α :=
  .peek fun
    | none => .malformed .endInValue
    | some '[' => settle leaveList do
      .advance
      let state ← elements shape.title shape.fields.length shape.fields 0 true shape.initial
      let value ← finished shape state
      endOfList
      return value
    | some '{' => settle leaveObject do
      .advance
      let state ← membersReader shape.fields shape.initial
      let value ← finished shape state
      .advance
      return value
    | some _ => mismatch shape.title

/-- Read a whole document: one value, and only blanks after it. -/
def readDocument (reader : Reader α) (document : List Char) : Except Problem α :=
  match reader.run document with
  | .error problem => .error problem
  | .ok (value, rest) =>
    match skipBlanks rest with
    | [] => .ok value
    | rest => .error ⟨.malformed .trailingCharacters, rest, .next⟩

end Multipass.Json
