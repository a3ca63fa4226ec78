import Multipass.Json.Record
import Multipass.Json.Value

/-!
# Configuration

The settings of thumbnails, read from a document in which every field may be left out.
-/

namespace Multipass

/-- The formats of image files that a thumbnail is written in. -/
inductive ImageFormat where
  | png
  | jpeg
  deriving DecidableEq, Repr

/-- The name of a format in a configuration. -/
def ImageFormat.name : ImageFormat → String
  | png => "png"
  | jpeg => "jpeg"

/-- The name of a format in a data URL. -/
def ImageFormat.mimeType : ImageFormat → String
  | png => "image/png"
  | jpeg => "image/jpeg"

/-- Settings of thumbnails. `time` is the logical time of the frame in seconds,
    `drainDelay` the pause between two jobs and `renderTimeout` the time after which a job
    counts as failed, both in milliseconds. With `coalesceDuplicates` a request for a key
    that is waiting joins the job that is there. -/
structure ThumbnailConfig where
  width : Nat
  height : Nat
  time : Float32
  format : ImageFormat
  drainDelay : Nat
  renderTimeout : Option Nat
  coalesceDuplicates : Bool

namespace ThumbnailConfig

/-- The settings for thumbnails when nothing else is configured. -/
def standard : ThumbnailConfig :=
  ⟨320, 180, 1, .png, 50, none, false⟩

/-- Are all settings the same? Times are compared as numbers. -/
def same (left right : ThumbnailConfig) : Bool :=
  left.width == right.width && left.height == right.height && left.time == right.time &&
    left.format == right.format && left.drainDelay == right.drainDelay &&
    left.renderTimeout == right.renderTimeout &&
    left.coalesceDuplicates == right.coalesceDuplicates

/-- Settings that are being read: those that were met so far. -/
structure Draft where
  width : Option Nat
  height : Option Nat
  time : Option Float32
  format : Option ImageFormat
  drainDelay : Option Nat
  renderTimeout : Option (Option Nat)
  coalesceDuplicates : Option Bool

/-- Read the name of a format. -/
def formatReader : Json.Reader ImageFormat :=
  Json.variant [("png", .png), ("jpeg", .jpeg)] "`png` or `jpeg`"

/-- The fields in the order in which a list gives them. -/
def Draft.fields : List (Json.Field Draft) := [
  .of "width" (Json.natural 32) (·.width)
    (fun draft value => { draft with width := some value }) true,
  .of "height" (Json.natural 32) (·.height)
    (fun draft value => { draft with height := some value }) true,
  .of "time" Json.single (·.time) (fun draft value => { draft with time := some value }) true,
  .of "format" formatReader (·.format) (fun draft value => { draft with format := some value }) true,
  .of "drain_delay_ms" (Json.natural 64) (·.drainDelay)
    (fun draft value => { draft with drainDelay := some value }) true,
  .of "render_timeout_ms" (Json.optional (Json.natural 64)) (·.renderTimeout)
    (fun draft value => { draft with renderTimeout := some value }) true,
  .of "coalesce_duplicates" Json.boolean (·.coalesceDuplicates)
    (fun draft value => { draft with coalesceDuplicates := some value }) true]

/-- Settings that were not met have their standard values. -/
def Draft.finish (draft : Draft) : ThumbnailConfig where
  width := draft.width.getD standard.width
  height := draft.height.getD standard.height
  time := draft.time.getD standard.time
  format := draft.format.getD standard.format
  drainDelay := draft.drainDelay.getD standard.drainDelay
  renderTimeout := draft.renderTimeout.getD standard.renderTimeout
  coalesceDuplicates := draft.coalesceDuplicates.getD standard.coalesceDuplicates

/-- How settings for thumbnails are read: any of them can be left out. -/
def shape : Json.Shape Draft ThumbnailConfig where
  title := "struct ThumbnailConfig"
  fields := Draft.fields
  initial := ⟨none, none, none, none, none, none, none⟩
  finish := fun draft => .ok draft.finish

/-- Settings for thumbnails as they are written. -/
def toValue (config : ThumbnailConfig) : Json.Value :=
  .object [
    ("width", .natural config.width),
    ("height", .natural config.height),
    ("time", .single config.time),
    ("format", .text config.format.name),
    ("drain_delay_ms", .natural config.drainDelay),
    ("render_timeout_ms", (config.renderTimeout.map Json.Value.natural).getD .null),
    ("coalesce_duplicates", .boolean config.coalesceDuplicates)]

end ThumbnailConfig

/-- The configuration of the pipeline. -/
structure Config where
  thumbnail : ThumbnailConfig

namespace Config

/-- The configuration of which nothing is set. -/
def standard : Config := ⟨.standard⟩

/-- How a configuration is read. The settings for thumbnails can be left out as a whole. -/
def shape : Json.Shape (Option ThumbnailConfig) Config where
  title := "struct PipelineConfig"
  fields := [.of "thumbnail" (Json.record ThumbnailConfig.shape) id (fun _ value => some value) true]
  initial := none
  finish := fun thumbnail => .ok ⟨thumbnail.getD .standard⟩

/-- Read a configuration. -/
def ofJson (text : String) : Except Json.Problem Config :=
  Json.readDocument (Json.record shape) text.toList

/-- A configuration as it is written. -/
def toValue (config : Config) : Json.Value :=
  .object [("thumbnail", config.thumbnail.toValue)]

/-- Write a configuration, every field of it. -/
def toJson (config : Config) : String :=
  config.toValue.pretty

end Config

end Multipass
