import Multipass.Json.Record
import Multipass.Json.Value
import Multipass.Pass.Source
import Multipass.Text.Base64

/-!
# Shader documents

An editor stores a shader as one document with a text for each pass. The texts may be
written in base64; reading a document undoes that, text by text, and leaves alone a text
that is no base64.
-/

namespace Multipass

/-- A shader as it is stored: the codes of its passes in the encoding that is named, and what is
    known of its making. -/
structure ShaderDocument where
  version : String
  exportedAt : Option String
  encoding : String
  image : String
  common : Option String
  bufferA : Option String
  bufferB : Option String
  bufferC : Option String
  bufferD : Option String
  deriving DecidableEq, Repr

namespace ShaderDocument

/-- The version of documents that do not name one. -/
def defaultVersion : String := "1.0"

/-- The encoding of codes that are stored as they are. -/
def plain : String := "plain"

/-- The encoding of codes that are stored as base64. -/
def base64 : String := "base64"

/-- A document that is being read: the fields that were met so far. -/
structure Draft where
  version : Option String
  exportedAt : Option (Option String)
  encoding : Option String
  image : Option String
  common : Option (Option String)
  bufferA : Option (Option String)
  bufferB : Option (Option String)
  bufferC : Option (Option String)
  bufferD : Option (Option String)

/-- A field that may be null or absent from an object, but not from a list. -/
def Draft.optionalText (name : String) (get : Draft → Option (Option String))
    (set : Draft → Option String → Draft) : Json.Field Draft :=
  .of name (Json.optional Json.text) get set false

/-- The fields in the order in which a list gives them. -/
def Draft.fields : List (Json.Field Draft) := [
  .of "version" Json.text (·.version) (fun draft value => { draft with version := some value }) true,
  Draft.optionalText "exported_at" (·.exportedAt) fun draft value => { draft with exportedAt := some value },
  .of "encoding" Json.text (·.encoding) (fun draft value => { draft with encoding := some value }) true,
  { Json.Field.of "image" Json.text (·.image)
      (fun draft value => { draft with image := some value }) false with aliases := ["fragment"] },
  Draft.optionalText "common" (·.common) fun draft value => { draft with common := some value },
  Draft.optionalText "buffer_a" (·.bufferA) fun draft value => { draft with bufferA := some value },
  Draft.optionalText "buffer_b" (·.bufferB) fun draft value => { draft with bufferB := some value },
  Draft.optionalText "buffer_c" (·.bufferC) fun draft value => { draft with bufferC := some value },
  Draft.optionalText "buffer_d" (·.bufferD) fun draft value => { draft with bufferD := some value }]

/-- Only the Image text is required. -/
def Draft.finish (draft : Draft) : Except String ShaderDocument :=
  match draft.image with
  | none => .error "image"
  | some image => .ok {
      version := draft.version.getD defaultVersion
      exportedAt := draft.exportedAt.join
      encoding := draft.encoding.getD plain
      image
      common := draft.common.join
      bufferA := draft.bufferA.join
      bufferB := draft.bufferB.join
      bufferC := draft.bufferC.join
      bufferD := draft.bufferD.join }

/-- How a document is read. -/
def shape : Json.Shape Draft ShaderDocument where
  title := "struct ShaderJson"
  fields := Draft.fields
  initial := ⟨none, none, none, none, none, none, none, none, none⟩
  finish := Draft.finish

/-- Change the text of every pass. -/
def mapTexts (f : String → String) (document : ShaderDocument) : ShaderDocument :=
  { document with
    image := f document.image
    common := document.common.map f
    bufferA := document.bufferA.map f
    bufferB := document.bufferB.map f
    bufferC := document.bufferC.map f
    bufferD := document.bufferD.map f }

/-- A document with its texts as they are meant. -/
def decoded (document : ShaderDocument) : ShaderDocument :=
  if document.encoding = base64 then
    { document.mapTexts fun text => (Text.Base64.decodeText? text).getD text with
      encoding := plain }
  else document

/-- A document with its texts in base64. -/
def encoded (document : ShaderDocument) : ShaderDocument :=
  { document.mapTexts Text.Base64.encodeText with encoding := base64 }

/-- Read a document. -/
def ofJson (text : String) : Except Json.Problem ShaderDocument :=
  (Json.readDocument (Json.record shape) text.toList).map decoded

/-- A member for an optional text, left out when there is none. -/
def member? (name : String) (text : Option String) : List (String × Json.Value) :=
  match text with
  | some text => [(name, .text text)]
  | none => []

/-- The document as a value, its fields in order. -/
def toValue (document : ShaderDocument) : Json.Value :=
  .object <|
    [("version", .text document.version)] ++
    member? "exported_at" document.exportedAt ++
    [("encoding", .text document.encoding), ("image", .text document.image)] ++
    member? "common" document.common ++
    member? "buffer_a" document.bufferA ++
    member? "buffer_b" document.bufferB ++
    member? "buffer_c" document.bufferC ++
    member? "buffer_d" document.bufferD

/-- Write a document, with its texts in base64 if asked for. -/
def toJson (document : ShaderDocument) (encode : Bool) : String :=
  (if encode then document.encoded else document).toValue.pretty

/-- Put the text of a pass into a document. -/
def setPass (document : ShaderDocument) (source : PassSource) : ShaderDocument :=
  match source.name with
  | .image => { document with image := source.code }
  | .common => { document with common := some source.code }
  | .bufferA => { document with bufferA := some source.code }
  | .bufferB => { document with bufferB := some source.code }
  | .bufferC => { document with bufferC := some source.code }
  | .bufferD => { document with bufferD := some source.code }

/-- The document of a snapshot that was exported at the given time. -/
def ofPasses (passes : List PassSource) (exportedAt : String) : ShaderDocument :=
  passes.foldl setPass
    ⟨defaultVersion, some exportedAt, plain, "", none, none, none, none, none⟩

/-- The snapshot of a document: Image first, and only the passes that are there. -/
def toPasses (document : ShaderDocument) : List PassSource :=
  ⟨.image, document.image⟩ ::
    [(PassName.common, document.common), (.bufferA, document.bufferA),
      (.bufferB, document.bufferB), (.bufferC, document.bufferC),
      (.bufferD, document.bufferD)].filterMap fun (name, code) => code.map (⟨name, ·⟩)

end ShaderDocument

end Multipass
