import MotionTemplate.Config

/-! Render jobs: what is asked of the service that renders, and what it reports. -/
namespace MotionTemplate

inductive RenderState where
  | pending
  | processing
  | completed
  | failed
deriving DecidableEq

namespace RenderState

/-- The names that the service uses; several stand for one state. -/
def names : List (String × RenderState) :=
  [("pending", .pending), ("draft", .pending), ("queued", .pending), ("completed", .completed),
   ("failed", .failed), ("processing", .processing), ("rendering", .processing)]

/-- A name that is not known stands for a job that is still running. -/
def ofName (name : String) : RenderState := (KeyMap.lookup name names).getD .processing

/-- What is reported when a name is read. -/
def nameEvents (name : String) : List Event :=
  match KeyMap.lookup name names with
  | some _ => []
  | none =>
    [⟨.warning, "Unknown render status, treating as processing", [("status", .text name)]⟩]

def name : RenderState → String
  | pending => "pending"
  | processing => "processing"
  | completed => "completed"
  | failed => "failed"

/-- The job is over. -/
def isTerminal : RenderState → Bool
  | completed | failed => true
  | pending | processing => false

end RenderState

/-- A report on a job. -/
structure RenderStatus where
  state : RenderState
  /-- In percent. -/
  progress : Nat
  outputUrl : Option String
  thumbnailUrl : Option String
  /-- In seconds. -/
  remaining : Option Nat
  errorMessage : Option String
deriving DecidableEq

namespace RenderStatus

def new (state : RenderState) (progress : Nat) : RenderStatus :=
  ⟨state, min progress 100, none, none, none, none⟩

def completed (url : String) : RenderStatus :=
  { new .completed 100 with outputUrl := some url }

def failed (message : String) : RenderStatus :=
  { new .failed 0 with errorMessage := some message }

def isTerminal (s : RenderStatus) : Bool := s.state.isTerminal

private def fieldNames : List String :=
  ["status", "progress", "output_url", "thumbnail_url", "estimated_time_remaining",
   "error_message"]

def decoder : Decoder RenderStatus := fun room j => do
  let r ← Decoder.record fieldNames room j
  return {
    state := ← r.required "status" (Decoder.string.map RenderState.ofName)
    progress := ← r.withDefault "progress" (Decoder.natBits 8) 0
    outputUrl := ← r.optional "output_url" Decoder.string
    thumbnailUrl := ← r.optional "thumbnail_url" Decoder.string
    remaining := ← r.optional "estimated_time_remaining" (Decoder.natBits 64)
    errorMessage := ← r.optional "error_message" Decoder.string }

def toJson (s : RenderStatus) : Json :=
  .object <|
    [("status", .string s.state.name), ("progress", .ofNat s.progress)]
    ++ Json.optionalField "output_url" .string s.outputUrl
    ++ Json.optionalField "thumbnail_url" .string s.thumbnailUrl
    ++ Json.optionalField "estimated_time_remaining" .ofNat s.remaining
    ++ Json.optionalField "error_message" .string s.errorMessage

/-- Whether a field of a report can be read. -/
private def accepts (name : String) (j : Json) : Bool :=
  if name = "progress" then (Decoder.run (Decoder.natBits 8) j).isSome
  else if name = "estimated_time_remaining" then
    (Decoder.run (Decoder.option (Decoder.natBits 64)) j).isSome
  else if name = "status" then (Decoder.run Decoder.string j).isSome
  else if fieldNames.contains name then (Decoder.run (Decoder.option Decoder.string) j).isSome
  else true

/-- The status, if nothing in front of it is repeated or cannot be read. -/
private def readName? (seen : List String) : List (String × Json) → Option String
  | [] => none
  | (name, j) :: rest =>
    if seen.contains name || !accepts name j then none
    else if name = "status" then j.str?
    else readName? (if fieldNames.contains name then name :: seen else seen) rest

/-- What is reported when a report is read. A text that turns out to be malformed later on has
been read up to there. -/
def readEvents (text : String) : List Event :=
  (readName? [] (Json.leadingRecord fieldNames text)).elim [] RenderState.nameEvents

end RenderStatus

inductive OutputFormat where
  | mp4
  | webm
  | gif
deriving DecidableEq

def OutputFormat.names : List (String × OutputFormat) :=
  [("mp4", .mp4), ("webm", .webm), ("gif", .gif)]

inductive Quality where
  | low
  | medium
  | high
  | ultra
deriving DecidableEq

def Quality.names : List (String × Quality) :=
  [("low", .low), ("medium", .medium), ("high", .high), ("ultra", .ultra)]

/-- All that a render starts from. The service resolves the customization itself. -/
structure RenderRequest where
  template : String
  title : String
  customization : Customization
  format : OutputFormat
  quality : Quality
  watermark : Bool
deriving DecidableEq

namespace RenderRequest

/-- A request under the template's own name, as a film of high quality. -/
def new (template : String) (customization : Customization) : RenderRequest :=
  ⟨template, template, customization, .mp4, .high, false⟩

def toJson (r : RenderRequest) : Json :=
  .object [("template_id", .string r.template), ("title", .string r.title),
    ("customization", r.customization.toJson),
    ("output_format", .string (Decoder.nameOf OutputFormat.names r.format)),
    ("quality", .string (Decoder.nameOf Quality.names r.quality)),
    ("watermark", .bool r.watermark)]

end RenderRequest

/-- Why a job could not be submitted or followed. -/
inductive JobError where
  /-- The service was not reached, or broke off. -/
  | network
  | refused (status : Nat) (body : String)
  /-- The answer is not what it should be. -/
  | malformed
  | timedOut (polls : Nat)
  | other (message : String)
deriving DecidableEq

namespace JobError

/-- The text of an error. Neither the network nor the reader of data gives a reason. -/
def message : JobError → String
  | network => "Network error: "
  | refused status body => "Render service returned " ++ toString status ++ ": " ++ body
  | malformed => "Failed to parse render service response: "
  | timedOut polls => "Gave up after " ++ toString polls ++ " status polls"
  | other message => message

def toFailure (e : JobError) : Failure := .render e.message

end JobError

end MotionTemplate
