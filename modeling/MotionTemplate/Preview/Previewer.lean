import MotionTemplate.Composition.Visibility
import MotionTemplate.Preview.Playhead
import MotionTemplate.Render.Frame

/-! A previewer: one template on display. It keeps the composition of its definition under the
current customization, and composes frames of it at the playhead's time. -/
namespace MotionTemplate

structure PreviewOptions where
  looping : Bool
  bounds : DurationBounds
  selector : AnimationSelector Float
  /-- The width of the container at first; without one a pixel of the display is one of the
  canvas. -/
  containerWidth : Option Float
deriving DecidableEq

/-- The options of a preview that is not configured. -/
def PreviewOptions.standard : PreviewOptions := ⟨true, .standard, .standard, none⟩

structure Previewer where
  definition : Definition
  customization : Customization
  options : PreviewOptions
  composition : Composition
  playhead : Playhead Float
  scale : ScaleMapper
  tracker : VisibilityTracker
  lastFrame : Option Frame
  framesComposed : Nat
  mounted : Bool
deriving DecidableEq

namespace Previewer

/-- The mapper of a canvas in a container of the given width. -/
def initialScale (canvas : Size) (width : Option Float) : Except ScaleError ScaleMapper := do
  let m ← ScaleMapper.new canvas
  match width with
  | none => return m
  | some width => return (← m.resize width).1

/-- Puts a template on display. -/
def mount (d : Definition) (c : Customization) (options : PreviewOptions) :
    Except ScaleError Previewer := do
  let composition := Composition.ofDefinition d c options.bounds
  let scale ← initialScale d.canvas options.containerWidth
  return {
    definition := d
    customization := c
    options
    composition
    playhead := (Playhead.new composition.duration).setLoop options.looping
    scale
    tracker := .empty
    lastFrame := none
    framesComposed := 0
    mounted := true }

private def mountedEvent (c : Composition) : Event where
  severity := .info
  message := "Mounted previewer"
  details := [("template", .text c.template), ("duration_secs", .number c.duration),
    ("theme", .text (Text.quotedOption c.theme)), ("layers", .count c.layers.length)]

/-- What is reported when a template is put on display, or fails to be. -/
def mountEvents (d : Definition) (c : Customization) (options : PreviewOptions) : List Event :=
  let r := Resolution.ofDefinition d c options.bounds
  let resizing :=
    match ScaleMapper.new d.canvas, options.containerWidth with
    | .ok m, some width => m.resizeEvents width
    | _, _ => []
  let rest :=
    match mount d c options with
    | .error _ => []
    | .ok _ => Playhead.newEvents r.composition.duration ++ [mountedEvent r.composition]
  r.events ++ resizing ++ rest

/-- Looks at every layer, in the order of the composition, at a time. -/
def observeAll (v : VisibilityTracker) (c : Composition) (t : Float) :
    VisibilityTracker × List (ResolvedLayer × VisibilityChange) :=
  c.layers.foldl (fun (v, changes) l =>
    let (v, change) := v.observe l t c.duration
    (v, changes ++ [(l, change)])) (v, [])

/-- Composes the frame at a time and remembers it. -/
def compose (p : Previewer) (t : Float) : Previewer × Frame :=
  let frame := p.composition.frameAt t p.scale.scale p.options.selector
  ({ p with
      tracker := (observeAll p.tracker p.composition t).1
      lastFrame := some frame
      framesComposed := p.framesComposed + 1 },
    frame)

private def changeEvents (t : Float) (l : ResolvedLayer) : VisibilityChange → List Event
  | .entered => [⟨.trace, "Layer entered", [("layer", .text l.id), ("t", .number t)]⟩]
  | .exited => [⟨.trace, "Layer exited", [("layer", .text l.id), ("t", .number t)]⟩]
  | .steady | .hidden => []

private def composeEvents (p : Previewer) (t : Float) : List Event :=
  (observeAll p.tracker p.composition t).2.flatMap fun change => changeEvents t change.1 change.2

/-- Takes a customization and resolves the composition anew. -/
def customize (p : Previewer) (now : Float) (c : Customization) : Previewer :=
  let composition := Composition.ofDefinition p.definition c p.options.bounds
  { p with
    customization := c
    composition
    playhead := p.playhead.setDuration composition.duration now
    tracker := .empty }

private def customizeEvents (p : Previewer) (now : Float) (c : Customization) : List Event :=
  let r := Resolution.ofDefinition p.definition c p.options.bounds
  r.events ++ p.playhead.events (.setDuration r.composition.duration now)

/-- A frame of the loop: the playhead moves on and the frame at its time is composed. -/
def tick (p : Previewer) (now : Float) : Previewer :=
  let playhead := p.playhead.advance now
  (({ p with playhead }).compose playhead.time).1

/-- What is reported in a frame of the loop. -/
def tickEvents (p : Previewer) (now : Float) : List Event :=
  let playhead := p.playhead.advance now
  p.playhead.events (.advance now) ++ ({ p with playhead }).composeEvents playhead.time

end Previewer

/-- What a host does with a previewer. -/
inductive PreviewCommand where
  | play
  | pause
  | toggle
  | beginScrub
  | endScrub
  | scrubTo (t : Float)
  /-- Composes the frame at the current time. -/
  | frame
  | resize (width : Float)
  | setCustomization (c : Customization)
  | setTheme (id : String)
  | setDuration (secs : Float)
  | setPlaceholder (id value : String)
  | unmount
deriving DecidableEq

/-- What a previewer answers. -/
inductive PreviewReply where
  | done
  | frame (f : Frame)
  /-- Whether the scale changed, or why it did not. -/
  | resized (result : Except ScaleError Bool)

namespace Previewer

/-- The customization after an edit; commands that are no edits have none. -/
def edited? (c : Customization) : PreviewCommand → Option Customization
  | .setCustomization c => some c
  | .setTheme id => some (c.withTheme id)
  | .setDuration secs => some (c.withDuration secs)
  | .setPlaceholder id value => some (c.set id value)
  | _ => none

/-- What a command does to the playhead, at the time the clock shows. -/
private def transport? (now : Float) : PreviewCommand → Option (Transport Float)
  | .play => some (.play now)
  | .pause => some (.pause now)
  | .toggle => some (.toggle now)
  | .beginScrub => some (.beginScrub now)
  | .endScrub => some (.endScrub now)
  | .scrubTo t => some (.scrubTo t now)
  | _ => none

/-- Carries out a command at the time the clock shows. A previewer that is not mounted keeps its
size. -/
def command (p : Previewer) (now : Float) (c : PreviewCommand) : Previewer × PreviewReply :=
  match c with
  | .play => ({ p with playhead := p.playhead.play now }, .done)
  | .pause => ({ p with playhead := p.playhead.pause now }, .done)
  | .toggle => ({ p with playhead := p.playhead.toggle now }, .done)
  | .beginScrub => ({ p with playhead := p.playhead.beginScrub now }, .done)
  | .endScrub => ({ p with playhead := p.playhead.endScrub now }, .done)
  | .scrubTo t =>
    let playhead := p.playhead.scrubTo t now
    let (p, frame) := ({ p with playhead }).compose playhead.time
    (p, .frame frame)
  | .frame =>
    let (p, frame) := p.compose p.playhead.time
    (p, .frame frame)
  | .resize width =>
    if p.mounted then
      match p.scale.resize width with
      | .ok (scale, changed) => ({ p with scale }, .resized (.ok changed))
      | .error e => (p, .resized (.error e))
    else (p, .resized (.ok false))
  | .setCustomization c => (p.customize now c, .done)
  | .setTheme id => (p.customize now (p.customization.withTheme id), .done)
  | .setDuration secs => (p.customize now (p.customization.withDuration secs), .done)
  | .setPlaceholder id value => (p.customize now (p.customization.set id value), .done)
  | .unmount => ({ p with mounted := false }, .done)

private def unmountEvents (p : Previewer) : List Event :=
  if p.mounted then
    [⟨.info, "Unmounted previewer",
      [("template", .text p.definition.id), ("frames", .count p.framesComposed)]⟩]
  else []

/-- What is reported when a command is carried out. -/
def commandEvents (p : Previewer) (now : Float) (c : PreviewCommand) : List Event :=
  let moved := (transport? now c).elim [] p.playhead.events
  let customized := (edited? p.customization c).elim [] (p.customizeEvents now)
  let rest :=
    match c with
    | .scrubTo t =>
      let playhead := p.playhead.scrubTo t now
      ({ p with playhead }).composeEvents playhead.time
    | .frame => p.composeEvents p.playhead.time
    | .resize width => if p.mounted then p.scale.resizeEvents width else []
    | .unmount => p.unmountEvents
    | _ => []
  moved ++ customized ++ rest

private def modeLabel : PlaybackMode → String
  | .stopped => "Stopped"
  | .playing => "Playing"
  | .scrubbing => "Scrubbing"

private def boolText (b : Bool) : String := if b then "true" else "false"

/-- The playback and the size as a diagnostic text. -/
def describe (p : Previewer) : String :=
  let number := Number.Layout.diagnostic.render
  let playback := "PlaybackState \x7b current_time: " ++ number p.playhead.time
    ++ ", duration_secs: " ++ number p.playhead.duration
    ++ ", is_playing: " ++ boolText (p.playhead.mode = .playing)
    ++ ", mode: " ++ modeLabel p.playhead.mode
    ++ ", loop_playback: " ++ boolText p.playhead.looping ++ " \x7d"
  "Previewer \x7b template: " ++ Text.quoted p.definition.id ++ ", playback: " ++ playback
    ++ ", scale: " ++ number p.scale.scale ++ ", mounted: " ++ boolText p.mounted ++ " \x7d"

end Previewer

end MotionTemplate
