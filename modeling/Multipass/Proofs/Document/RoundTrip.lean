import Mathlib.Data.List.Nodup
import Multipass.Document.Shader
import Multipass.Proofs.Json.Record
import Multipass.Proofs.Text.Base64

/-!
# Shader documents are read back

A document is read back field by field from its plain text and from its text in base64. So the
passes of a snapshot come back, with Image in front.
-/

namespace Multipass.ShaderDocument

open Json

/-! ## Fields -/

section Fields

variable {σ : Type} {fields : List (Json.Field σ)} {field : Json.Field σ} {state : σ}

theorem takesAll_text {set : String → σ} (name value : String) (next : σ)
    (found : fields.find? (·.answersTo name.toList) = some field)
    (reads : field.read state = set <$> text) (unset : field.isSet state = false)
    (reached : set value = next) : TakesAll fields state [(name, .text value)] next := by
  refine .single ⟨field, found, unset, fun depth rest => ?_⟩
  have read : text.run (' ' :: (textLiteral value ++ rest)) = .ok (value, rest) :=
    text_run (skipBlanks_textLiteral value rest)
  rw [reads, Value.render, ← reached]
  exact Reader.run_map_of_ok read set

/-- An optional text is taken in where it is there. -/
theorem takesAll_member? {set : Option String → σ} (name : String) (value : Option String) (next : σ)
    (found : fields.find? (·.answersTo name.toList) = some field)
    (reads : field.read state = set <$> optional text) (unset : field.isSet state = false)
    (reached : value.elim state (set ∘ some) = next) :
    TakesAll fields state (member? name value) next := by
  subst reached
  cases value with
  | none => exact .nil state
  | some value =>
    refine .single ⟨field, found, unset, fun depth rest => ?_⟩
    have read : (optional text).run (' ' :: (textLiteral value ++ rest)) = .ok (some value, rest) :=
      optional_text_run (skipBlanks_textLiteral value rest)
    rw [reads, Value.render]
    exact Reader.run_map_of_ok read set

end Fields

/-- The members of a document. -/
def members (document : ShaderDocument) : List (String × Value) :=
  [("version", .text document.version)] ++
  member? "exported_at" document.exportedAt ++
  [("encoding", .text document.encoding)] ++ [("image", .text document.image)] ++
  member? "common" document.common ++
  member? "buffer_a" document.bufferA ++
  member? "buffer_b" document.bufferB ++
  member? "buffer_c" document.bufferC ++
  member? "buffer_d" document.bufferD

/-- A draft with every field of a document. -/
def Draft.ofDocument (document : ShaderDocument) : Draft where
  version := some document.version
  exportedAt := document.exportedAt.map some
  encoding := some document.encoding
  image := some document.image
  common := document.common.map some
  bufferA := document.bufferA.map some
  bufferB := document.bufferB.map some
  bufferC := document.bufferC.map some
  bufferD := document.bufferD.map some

theorem join_map_some {α : Type} (value : Option α) : (value.map some).join = value := by
  cases value <;> rfl

theorem Draft.finish_ofDocument (document : ShaderDocument) :
    (Draft.ofDocument document).finish = .ok document := by
  simp only [Draft.finish, Draft.ofDocument, Option.getD_some, join_map_some]

/-- A draft takes the members of a document in, one field after another. -/
theorem takesAll_members (document : ShaderDocument) :
    TakesAll Draft.fields shape.initial document.members (Draft.ofDocument document) := by
  obtain ⟨version, exportedAt, encoding, image, common, bufferA, bufferB, bufferC, bufferD⟩ :=
    document
  simp only [members, List.append_assoc]
  refine .append (takesAll_text "version" version
    ⟨some version, none, none, none, none, none, none, none, none⟩ rfl rfl rfl rfl) ?_
  refine .append (takesAll_member? "exported_at" exportedAt
    ⟨some version, exportedAt.map some, none, none, none, none, none, none, none⟩
    rfl rfl rfl (by cases exportedAt <;> rfl)) ?_
  refine .append (takesAll_text "encoding" encoding
    ⟨some version, exportedAt.map some, some encoding, none, none, none, none, none, none⟩
    rfl rfl rfl rfl) ?_
  refine .append (takesAll_text "image" image
    ⟨some version, exportedAt.map some, some encoding, some image, none, none, none, none, none⟩
    rfl rfl rfl rfl) ?_
  refine .append (takesAll_member? "common" common
    ⟨some version, exportedAt.map some, some encoding, some image, common.map some, none, none,
      none, none⟩ rfl rfl rfl (by cases common <;> rfl)) ?_
  refine .append (takesAll_member? "buffer_a" bufferA
    ⟨some version, exportedAt.map some, some encoding, some image, common.map some,
      bufferA.map some, none, none, none⟩ rfl rfl rfl (by cases bufferA <;> rfl)) ?_
  refine .append (takesAll_member? "buffer_b" bufferB
    ⟨some version, exportedAt.map some, some encoding, some image, common.map some,
      bufferA.map some, bufferB.map some, none, none⟩ rfl rfl rfl (by cases bufferB <;> rfl)) ?_
  refine .append (takesAll_member? "buffer_c" bufferC
    ⟨some version, exportedAt.map some, some encoding, some image, common.map some,
      bufferA.map some, bufferB.map some, bufferC.map some, none⟩ rfl rfl rfl
    (by cases bufferC <;> rfl)) ?_
  exact takesAll_member? "buffer_d" bufferD _ rfl rfl rfl (by cases bufferD <;> rfl)

theorem toValue_eq (document : ShaderDocument) : document.toValue = .object document.members := by
  simp only [toValue, members, List.append_assoc, List.cons_append, List.nil_append]

theorem readDocument_toValue (document : ShaderDocument) :
    readDocument (record shape) document.toValue.pretty.toList = .ok document := by
  rw [toValue_eq]
  exact readDocument_pretty (takesAll_members document) (Draft.finish_ofDocument document)

/-! ## Encodings -/

theorem decoded_of_ne {document : ShaderDocument} (notBase64 : document.encoding ≠ base64) :
    document.decoded = document :=
  if_neg notBase64

theorem mapTexts_mapTexts (f g : String → String) (document : ShaderDocument) :
    (document.mapTexts f).mapTexts g = document.mapTexts (g ∘ f) := by
  simp only [mapTexts, Option.map_map, Function.comp_apply]

theorem mapTexts_id (document : ShaderDocument) : document.mapTexts id = document := by
  simp only [mapTexts, Option.map_id, id]

/-- A text is decoded to what was encoded. -/
theorem decoded_encoded (document : ShaderDocument) :
    document.encoded.decoded = { document with encoding := plain } := by
  have back : (fun text => (Text.Base64.decodeText? text).getD text) ∘ Text.Base64.encodeText =
      id := by
    funext text
    rw [Function.comp_apply, Text.Base64.decodeText?_encodeText]
    rfl
  have texts : document.encoded.decoded =
      { (document.mapTexts Text.Base64.encodeText).mapTexts
          (fun text => (Text.Base64.decodeText? text).getD text) with encoding := plain } :=
    if_pos rfl
  rw [texts, mapTexts_mapTexts, back, mapTexts_id]

theorem ofJson_toJson_plain {document : ShaderDocument} (notBase64 : document.encoding ≠ base64) :
    ofJson (document.toJson false) = .ok document := by
  show (readDocument (record shape) document.toValue.pretty.toList).map decoded = _
  rw [readDocument_toValue, Except.map, decoded_of_ne notBase64]

/-- The encoding that a document had does not matter once its texts are in base64. -/
theorem ofJson_toJson_encoded (document : ShaderDocument) :
    ofJson (document.toJson true) = .ok { document with encoding := plain } := by
  show (readDocument (record shape) document.encoded.toValue.pretty.toList).map decoded = _
  rw [readDocument_toValue, Except.map, decoded_encoded]

/-! ## Passes -/

/-- The order of the passes in the snapshot of a document. -/
def passOrder : List PassName :=
  [.image, .common, .bufferA, .bufferB, .bufferC, .bufferD]

/-- The text of a pass in a document. -/
def code? (document : ShaderDocument) : PassName → Option String
  | .image => some document.image
  | .common => document.common
  | .bufferA => document.bufferA
  | .bufferB => document.bufferB
  | .bufferC => document.bufferC
  | .bufferD => document.bufferD

theorem toPasses_eq (document : ShaderDocument) :
    document.toPasses = passOrder.filterMap fun name => (document.code? name).map (⟨name, ·⟩) := rfl

theorem mem_passOrder (name : PassName) : name ∈ passOrder := by
  cases name <;> decide

theorem mem_toPasses {document : ShaderDocument} {source : PassSource} :
    source ∈ document.toPasses ↔ document.code? source.name = some source.code := by
  rw [toPasses_eq, List.mem_filterMap]
  constructor
  · rintro ⟨name, -, found⟩
    obtain ⟨code, here, rfl⟩ := Option.map_eq_some_iff.mp found
    exact here
  · intro here
    exact ⟨source.name, mem_passOrder source.name, by rw [here]; rfl⟩

/-- The passes of a document are in order. -/
theorem names_toPasses_sublist (document : ShaderDocument) :
    (document.toPasses.map (·.name)).Sublist passOrder := by
  rw [toPasses_eq]
  generalize passOrder = names
  induction names with
  | nil => exact .slnil
  | cons name rest ih =>
    cases here : document.code? name with
    | none => 
      rw [List.filterMap_cons_none (by rw [here]; rfl)]
      exact ih.cons name
    | some code => 
      rw [List.filterMap_cons_some (by rw [here]; rfl), List.map_cons]
      exact ih.cons_cons name

theorem nodup_toPasses (document : ShaderDocument) : document.toPasses.Nodup :=
  List.Nodup.of_map _ ((names_toPasses_sublist document).nodup (by decide))

theorem code?_setPass (document : ShaderDocument) (source : PassSource) (name : PassName) :
    (document.setPass source).code? name =
      if name = source.name then some source.code else document.code? name := by
  obtain ⟨sourceName, code⟩ := source
  cases sourceName <;> cases name <;> rfl

/-- The texts of a document that passes with different names were put into. -/
theorem code?_foldl_setPass {passes : List PassSource} (different : (passes.map (·.name)).Nodup)
    (document : ShaderDocument) (name : PassName) (code : String) :
    (passes.foldl setPass document).code? name = some code ↔
      ⟨name, code⟩ ∈ passes ∨ name ∉ passes.map (·.name) ∧ document.code? name = some code := by
  induction passes generalizing document with
  | nil => simp
  | cons source rest ih =>
    obtain ⟨sourceName, sourceCode⟩ := source
    rw [List.map_cons, List.nodup_cons] at different
    rw [List.foldl_cons, ih different.2, code?_setPass, List.map_cons, List.mem_cons,
      List.mem_cons, PassSource.mk.injEq]
    by_cases same : name = sourceName
    · subst same
      have notLater : (⟨name, code⟩ : PassSource) ∉ rest := fun later =>
        different.1 (List.mem_map.mpr ⟨_, later, rfl⟩)
      simp [notLater, different.1, eq_comm]
    · simp [same]

/-- The passes of a snapshot come back from its document. -/
theorem toPasses_ofPasses {passes : List PassSource} (different : (passes.map (·.name)).Nodup)
    (image : PassName.image ∈ passes.map (·.name)) (exportedAt : String) :
    (ofPasses passes exportedAt).toPasses.Perm passes := by
  refine (List.perm_ext_iff_of_nodup (nodup_toPasses _) (List.Nodup.of_map _ different)).mpr fun source => ?_
  rw [mem_toPasses, ofPasses, code?_foldl_setPass different]
  refine or_iff_left ?_
  rintro ⟨absent, initial⟩
  cases name : source.name with
  | image => exact absent (name ▸ image)
  | _ =>
    rw [name] at initial
    exact absurd initial (by simp [code?])

theorem encoding_foldl_setPass (passes : List PassSource) (document : ShaderDocument) :
    (passes.foldl setPass document).encoding = document.encoding := by
  induction passes generalizing document with
  | nil => rfl
  | cons source rest ih =>
    rw [List.foldl_cons, ih, setPass]
    cases source.name <;> rfl

/-- The document of a snapshot is read back, written in either encoding. -/
theorem ofJson_toJson_ofPasses (passes : List PassSource) (exportedAt : String) (encode : Bool) :
    ofJson ((ofPasses passes exportedAt).toJson encode) = .ok (ofPasses passes exportedAt) := by
  have isPlain : (ofPasses passes exportedAt).encoding = plain := encoding_foldl_setPass passes _
  cases encode with
  | false => exact ofJson_toJson_plain (by rw [isPlain]; decide)
  | true =>
    rw [ofJson_toJson_encoded, ← isPlain]

/-- Documents are read back as they were written, and so are the passes of a snapshot. -/
theorem ofJson_toJson :
    (∀ document : ShaderDocument, document.encoding ≠ base64 →
      ofJson (document.toJson false) = .ok document ∧
        ofJson (document.toJson true) = .ok { document with encoding := plain }) ∧
    ∀ (passes : List PassSource) (exportedAt : String) (encode : Bool),
      (passes.map (·.name)).Nodup → PassName.image ∈ passes.map (·.name) →
        ∃ document, ofJson ((ofPasses passes exportedAt).toJson encode) = .ok document ∧
          document.toPasses.Perm passes ∧ (document.toPasses.map (·.name)).Sublist passOrder := by
  constructor
  · intro document notBase64
    exact ⟨ofJson_toJson_plain notBase64, ofJson_toJson_encoded document⟩
  · intro passes exportedAt encode different image
    exact ⟨ofPasses passes exportedAt, ofJson_toJson_ofPasses passes exportedAt encode,
      toPasses_ofPasses different image exportedAt, names_toPasses_sublist _⟩

/-- A document with controls, quotes and characters beyond the basic plane, and a snapshot with
    Image last. -/
theorem ofJson_toJson_escapes :
    let document : ShaderDocument :=
      ⟨"1.0", some "", "utf-8", "\"\\\x00\x1f\n é😀", none, some "", none, none, some "\x7f"⟩
    let passes : List PassSource := [⟨.bufferD, "é"⟩, ⟨.common, ""⟩, ⟨.image, "a\tb"⟩]
    (document.encoding ≠ base64 ∧ ofJson (document.toJson false) = .ok document ∧
      ofJson (document.toJson true) = .ok { document with encoding := plain }) ∧
    (passes.map (·.name)).Nodup ∧ PassName.image ∈ passes.map (·.name) ∧
      ∃ document, ofJson ((ofPasses passes "now").toJson true) = .ok document ∧
        document.toPasses.Perm passes ∧ (document.toPasses.map (·.name)).Sublist passOrder :=
  ⟨⟨by decide, ofJson_toJson.1 _ (by decide)⟩, by decide, by decide,
    ofJson_toJson.2 _ "now" true (by decide) (by decide)⟩

end Multipass.ShaderDocument
