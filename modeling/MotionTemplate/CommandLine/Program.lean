import MotionTemplate.CommandLine.Customizing
import MotionTemplate.CommandLine.Player
import MotionTemplate.CommandLine.Report
import MotionTemplate.Config
import MotionTemplate.Render.Service
import MotionTemplate.Template.Starter

/-! A run of the program. All that it reads is given and all that it does is part of the outcome;
only a preview has to be played by the host, in real time or on a clock of its own. -/
namespace MotionTemplate.CommandLine

/-- How readings of the clock are written. -/
structure TimeTexts where
  /-- The time of a frame. -/
  frame : Float → String
  /-- How long something took. -/
  total : Float → String
  /-- When a job was submitted. -/
  submitted : String

/-- What a run starts from. -/
structure Host where
  environment : Environment
  files : FileTree
  /-- What becomes of the requests that are sent to the render service. -/
  replies : List HttpReply
  texts : TimeTexts

/-- What a run has come to so far. -/
structure Progress where
  output : String
  errors : String
  files : FileTree
  requests : List HttpRequest
  events : List Event

/-- Why a run stops before its end. -/
inductive Halt where
  /-- A failure with a text for the user. -/
  | failed (message : String)
  /-- A step is asked for what it cannot do. -/
  | broken
deriving DecidableEq

/-- A part of a run. -/
abbrev Run := ExceptT Halt (StateM Progress)

namespace Run

private def write (text : String) : Run Unit :=
  modify fun p => { p with output := p.output ++ text }

private def print (lines : List String) : Run Unit := write (String.join (lines.map (· ++ "\n")))

private def report (events : List Event) : Run Unit :=
  modify fun p => { p with events := p.events ++ events }

private def orFail {ε α : Type} (message : ε → String) (result : Except ε α) : Run α :=
  ExceptT.mk (pure (result.mapError fun e => .failed (message e)))

private def orBreak {α : Type} (result : Option α) : Run α := result.elim (throw .broken) pure

/-- Takes steps on the files. What was done before one fails is not undone. -/
private def perform {ε : Type} (message : ε → String) (steps : Steps ε Unit) : Run Unit := do
  match steps (← get).files with
  | .ok _ files => modify fun p => { p with files }
  | .error e files =>
    modify fun p => { p with files }
    throw (.failed (message e))

end Run

open Run

/-- A template is found by its path, or else by its id in the templates directory. -/
def templatePath (c : Config) (files : FileTree) (template : String) : String :=
  let byId := Path.join c.templatesDir (template ++ ".json")
  if !files.pathExists template && files.pathExists byId then byId else template

private def foundEvents (path template : String) : List Event :=
  if path = template then []
  else [⟨.debug, "Resolved template id", [("path", .text path)]⟩]

private def loadedEvent (d : Definition) (path : String) : Event where
  severity := .debug
  message := "Loaded template"
  details := [("template", .text d.id), ("path", .text path)]

private def loadTemplate (c : Config) (template : String) : Run Definition := do
  let files := (← get).files
  let path := templatePath c files template
  report (foundEvents path template)
  let d ← orFail (·.toFailure.message) (Definition.load files path)
  report [loadedEvent d path]
  return d

private def customize (choices : Choices) : Run Customization := do
  orFail ChoiceError.message (choices.build (← get).files)

private def compose (c : Config) (d : Definition) (choices : Choices) : Run Composition := do
  let resolution := Resolution.ofDefinition d (← customize choices) c.preview.bounds
  report resolution.events
  return resolution.composition

private def create (id : String) (name : Option String) (output : String) : Run Unit := do
  let path := Path.join output (id ++ ".json")
  if (← get).files.pathExists path then throw (.failed (path ++ " already exists"))
  print ["Creating template '" ++ id ++ "' at " ++ path]
  perform FileError.message (FileTree.creatingDirectories output)
  let d := Definition.starter id (name.getD id)
  perform (fun e => "Failed to write template: " ++ e.message) (d.saving path)
  print (Report.created d path)

private def validate (c : Config) (template : String) (choices : Choices) : Run Unit := do
  print ["Validating template: " ++ template]
  let d ← loadTemplate c template
  print (Report.identity d)
  let customization ← customize choices
  print (Report.verdict (Report.issues d customization c.preview.bounds))

private def info (c : Config) (template : String) (json : Bool) : Run Unit := do
  let s := Summary.ofDefinition (← loadTemplate c template)
  print (if json then [s.toJson.pretty] else Report.summary s)

private def resolve (c : Config) (template : String) (choices : Choices) : Run Unit := do
  let composition ← compose c (← loadTemplate c template) choices
  print [composition.toJson.pretty]

/-- The mapper of a canvas, in a container of a width if one is given. -/
private def scaleFor (canvas : Size) (width : Option Float) : Run ScaleMapper := do
  let m ← orFail ScaleError.message (ScaleMapper.new canvas)
  match width with
  | none => return m
  | some width =>
    report (m.resizeEvents width)
    return (← orFail ScaleError.message (m.resize width)).1

/-- The time of a single frame, held between the start and the end of a composition. A composition
that ends before its start has no such time. -/
def frameTime? (c : Composition) (time : Float) : Option Float :=
  if 0.0 ≤ c.duration then some (Number.clamp time 0.0 c.duration) else none

private def frame (c : Config) (template : String) (time : Float) (width : Option Float)
    (choices : Choices) : Run Unit := do
  let d ← loadTemplate c template
  let composition ← compose c d choices
  let m ← scaleFor d.canvas width
  let t ← orBreak (frameTime? composition time)
  report c.preview.events
  print [(composition.frameAt t m.scale c.preview.selector).toJson.pretty]

private def plan (c : Config) (template : String) (time : Option Float) (choices : Choices) :
    Run Unit := do
  let p := RenderPlan.ofComposition (← compose c (← loadTemplate c template) choices)
  report p.events
  print (Report.plan p time)

private def choose {α : Type} (what choices name : String) (names : List (String × α)) : Run α :=
  match KeyMap.lookup name names with
  | some a => return a
  | none => throw (.failed ("Unknown " ++ what ++ ": " ++ name ++ ". Use: " ++ choices))

private def progressText (s : RenderStatus) : String :=
  "\r  Progress: " ++ Number.padLeft 3 (toString s.progress) ++ "% (" ++ s.state.name ++ ")  "

private def submit (client : ServiceClient) (r : RenderRequest) (host : Host) : Run Unit := do
  let e := client.submit r host.replies
  modify fun p => { p with requests := p.requests ++ e.requests }
  report e.events
  let job ← orFail JobError.message e.result
  print ["  Job: " ++ job, "  Submitted: " ++ host.texts.submitted]

private def follow (client : ServiceClient) (r : RenderRequest) (options : PollOptions)
    (host : Host) : Run Unit := do
  let run := client.renderAndWait r options host.replies
  modify fun p => { p with requests := p.requests ++ run.requests }
  report run.events
  write (String.join (run.statuses.map progressText))
  print [""]
  let status ← orFail (fun e : Failure => "Render failed: " ++ e.message) run.result
  print (("Render complete: " ++ status.outputUrl.getD "(no url)")
    :: status.thumbnailUrl.toList.map ("  Thumbnail: " ++ ·))

private def render (c : Config) (host : Host) (template : String) (title : Option String)
    (format quality : String) (wait : Bool) (maxPolls : Option Nat) (choices : Choices) :
    Run Unit := do
  let d ← loadTemplate c template
  let new := RenderRequest.new d.id (← customize choices)
  let format ← choose "format" "mp4, webm, gif" format OutputFormat.names
  let quality ← choose "quality" "low, medium, high, ultra" quality Quality.names
  let request := { new with format, quality, title := title.getD new.title }
  let client := ServiceClient.ofService c.renderService
  print ["Submitting render of '" ++ d.id ++ "' to " ++ c.renderService.baseUrl]
  if wait then
    follow client request { PollOptions.ofService c.renderService with maxPolls } host
  else submit client request host

/-- The first line of a preview. -/
private def playHeader (template : String) (fps : Nat) (p : Player) (shown : Previewer) : String :=
  "Previewing " ++ template ++ " (" ++ Number.Layout.message.render shown.playhead.duration
    ++ "s at " ++ toString fps ++ "fps, scale " ++ Number.fixed 3 shown.scale.scale ++ ") for "
    ++ Number.fixed 1 p.length ++ "s"

private def preview (c : Config) (template : String) (fps : Option Nat)
    (seconds width : Option Float) (looping : Bool) (choices : Choices) : Run Player := do
  let d ← loadTemplate c template
  let customization ← customize choices
  let fps := max (fps.getD d.fps) 1
  report c.preview.events
  let options := { c.preview.options with looping, containerWidth := width }
  let (stage, mounted) := (Stage.empty .zero).mount d customization options
  report stage.log
  let _ ← orFail PreviewError.message mounted
  let p := Player.start { stage with log := [] } fps seconds
  print (p.previewer?.toList.map (playHeader template fps p))
  return p

/-- A line of a preview as text. -/
def PlayLine.text (texts : TimeTexts) : PlayLine → String
  | layers time ids => "  " ++ texts.frame time ++ "s  [" ++ String.intercalate ", " ids ++ "]"
  | ended => "  Reached the end."

/-- The last line of a preview that took so many nanoseconds. -/
def Player.footer (p : Player) (texts : TimeTexts) (nanos : UInt64) : String :=
  "Composed " ++ toString (p.previewer?.elim 0 (·.framesComposed)) ++ " frames in "
    ++ texts.total (Clock.nanosToSecs nanos) ++ "s (" ++ toString p.stage.loop.frameIndex
    ++ " loop ticks)"

/-- Carries out a command. What is left to play is given back. -/
private def carryOut (c : Config) (host : Host) : Command → Run (Option Player)
  | .init id name output => do create id name output; return none
  | .validate template choices => do validate c template choices; return none
  | .info template json => do info c template json; return none
  | .resolve template choices => do resolve c template choices; return none
  | .frame template time width choices => do frame c template time width choices; return none
  | .preview template fps seconds width looping choices =>
    some <$> preview c template fps seconds width looping choices
  | .plan template time choices => do plan c template time choices; return none
  | .render template title format quality wait maxPolls choices => do
    render c host template title format quality wait maxPolls choices
    return none

/-- Opens the log file. That it cannot be opened is reported and stops nothing. -/
private def openLog (files : FileTree) (path : String) : FileTree × String :=
  match files.touch path with
  | .ok files => (files, "")
  | .error e => (files, "Failed to open log file " ++ path ++ ": " ++ e.message ++ "\n")

/-- What a run comes to. -/
structure Outcome where
  code : Nat
  progress : Progress
  /-- A preview that is still to be played. -/
  player : Option Player

/-- The code of a run that broke off. -/
def brokenCode : Nat := 101

/-- Runs the program up to a preview. -/
def start (host : Host) (invocation : Invocation) : Outcome :=
  let c := Config.load host.environment host.files
  let (files, errors) := c.logging.file.elim (host.files, "") (openLog host.files)
  let events := Config.loadEvents host.environment host.files
  let first : Progress := ⟨"", errors, files, [], events⟩
  match (carryOut c host invocation.command).run.run first with
  | (.ok player, progress) => ⟨0, progress, player⟩
  | (.error (.failed message), progress) =>
    ⟨1, { progress with errors := progress.errors ++ "Error: " ++ message ++ "\n" }, none⟩
  | (.error .broken, progress) => ⟨brokenCode, progress, none⟩

/-- Runs the program to its end; a preview is played on a clock that only waiting moves. -/
def run (host : Host) (invocation : Invocation) : Outcome :=
  let outcome := start host invocation
  match outcome.player with
  | none => outcome
  | some player =>
    let (lines, last, nanos) := player.play
    let last := last.stop
    let texts := lines.map (PlayLine.text host.texts) ++ [last.footer host.texts nanos]
    { outcome with
      player := none
      progress := { outcome.progress with
        output := outcome.progress.output ++ String.join (texts.map (· ++ "\n"))
        events := outcome.progress.events ++ last.stage.log } }

end MotionTemplate.CommandLine
