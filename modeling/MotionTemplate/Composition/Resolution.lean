import MotionTemplate.Composition.Numeric
import MotionTemplate.Composition.Scope
import MotionTemplate.Composition.Window
import MotionTemplate.Event
import MotionTemplate.Text.Quoted

/-! Compositions: definitions with every token replaced. Resolving never fails; what it had to
make up is listed beside its result. -/
namespace MotionTemplate

namespace WindowEnd

def toJson : WindowEnd Float → Json
  | fixed secs => .object [("kind", .string "at"), ("secs", .ofFloat secs)]
  | fullDuration => .object [("kind", .string "full_duration")]

end WindowEnd

/-- A layer of a composition. -/
structure ResolvedLayer where
  id : String
  kind : LayerKind
  window : Window Float
  z : Int
  source : Option Json
  text : Option Json
  style : KeyMap Json
  transform : KeyMap Json
  /-- The animation that drives a preview. -/
  animation : Option (AnimationSpec Float)
  effects : List Json
deriving DecidableEq

namespace ResolvedLayer

/-- The text, if it is a string. -/
def textString? (l : ResolvedLayer) : Option String := l.text.bind Json.str?

/-- The address of the media, if it is a string. -/
def sourceString? (l : ResolvedLayer) : Option String := l.source.bind Json.str?

def styleString? (l : ResolvedLayer) (key : String) : Option String :=
  (l.style.find? key).bind Json.str?

def styleNumber? (l : ResolvedLayer) (key : String) : Option Float :=
  (l.style.find? key).bind Json.numeric?

def transformString? (l : ResolvedLayer) (key : String) : Option String :=
  (l.transform.find? key).bind Json.str?

def transformNumber? (l : ResolvedLayer) (key : String) : Option Float :=
  (l.transform.find? key).bind Json.numeric?

def toJson (l : ResolvedLayer) : Json :=
  .object <|
    [("id", .string l.id), ("kind", .string (Decoder.nameOf LayerKind.names l.kind)),
     ("start", .ofFloat l.window.start), ("end", l.window.finish.toJson), ("z", .ofInt l.z)]
    ++ Json.optionalField "source" (fun j => j) l.source
    ++ Json.optionalField "text" (fun j => j) l.text
    ++ [("style", .object l.style.entries), ("transform", .object l.transform.entries)]
    ++ Json.optionalField "animation" AnimationSpec.toJson l.animation
    ++ [("effects", .array l.effects)]

end ResolvedLayer

/-- What a preview plays and a renderer draws. -/
structure Composition where
  template : String
  canvas : Size
  fps : Nat
  duration : Float
  theme : Option String
  /-- In ascending `z`, equal ones in the order of declaration. -/
  layers : List ResolvedLayer
deriving DecidableEq

namespace Composition

def layer? (c : Composition) (id : String) : Option ResolvedLayer :=
  c.layers.find? (·.id = id)

def toJson (c : Composition) : Json :=
  .object <|
    [("template_id", .string c.template), ("canvas", c.canvas.toJson), ("fps", .ofNat c.fps),
     ("duration_secs", .ofFloat c.duration)]
    ++ Json.optionalField "theme_id" .string c.theme
    ++ [("layers", .ofList ResolvedLayer.toJson c.layers)]

end Composition

/-- A start or an end that is no number. -/
inductive EdgeIssue where
  | start (layer : String)
  | finish (layer : String)
deriving DecidableEq

def EdgeIssue.event : EdgeIssue → Event
  | start layer => ⟨.warning, "Non-numeric start, using 0", [("layer", .text layer)]⟩
  | finish layer =>
    ⟨.warning, "Non-numeric end, using full duration", [("layer", .text layer)]⟩

namespace Scope

/-- The start of a layer. What is no number counts as zero. -/
def trackStart (s : Scope) (l : Layer) : Tracked Float :=
  let r := s.track l.start
  ⟨r.value.numeric?.getD 0.0, r.missed⟩

/-- The end of a layer. The duration token keeps following the duration, and so does what is no
number. -/
def trackFinish (s : Scope) (l : Layer) : Tracked (WindowEnd Float) :=
  if l.finish.token? = some .currentDuration then ⟨.fullDuration, []⟩
  else
    let r := s.track l.finish
    ⟨r.value.numeric?.elim .fullDuration .fixed, r.missed⟩

/-- Resolves every field of a layer. -/
def trackLayer (s : Scope) (l : Layer) : Tracked ResolvedLayer :=
  let start := s.trackStart l
  let finish := s.trackFinish l
  let source := s.trackOption l.source
  let text := s.trackOption l.text
  let style := s.trackMap l.style
  let transform := s.trackMap l.transform
  { value := {
      id := l.id
      kind := l.kind
      window := ⟨start.value, finish.value⟩
      z := l.z
      source := source.value
      text := text.value
      style := style.value
      transform := transform.value
      animation := l.primaryAnimation?
      effects := l.effects.map s.resolve }
    missed := start.missed ++ finish.missed ++ source.missed ++ text.missed ++ style.missed
      ++ transform.missed ++ l.effects.flatMap fun v => (s.track v).missed }

/-- The edges of a layer's window that are no numbers. -/
def edgeIssues (s : Scope) (l : Layer) : List EdgeIssue :=
  (if (s.resolve l.start).numeric?.isNone then [.start l.id] else [])
    ++ if l.finish.token? ≠ some .currentDuration ∧ (s.resolve l.finish).numeric?.isNone then
        [.finish l.id]
      else []

end Scope

/-- A composition, and what had to be made up for it. -/
structure Resolution where
  composition : Composition
  /-- A theme that was asked for and is not declared. -/
  unknownTheme : Option String
  edges : List EdgeIssue
  /-- The tokens that took fallbacks, each once, in their order. -/
  missed : List Token

namespace Resolution

/-- Resolves a definition. The theme and the duration are those of the customization where they
are usable, and the definition's otherwise. -/
def ofDefinition (d : Definition) (c : Customization) (bounds : DurationBounds) : Resolution :=
  let duration := c.effectiveDuration d bounds
  let theme := c.effectiveTheme? d
  let scope := Scope.ofDefinition d c duration
  let tracked := d.layers.map scope.trackLayer
  { composition := {
      template := d.id
      canvas := d.canvas
      fps := d.fps
      duration
      theme
      layers := (tracked.map (·.value)).mergeSort fun a b => a.z ≤ b.z }
    unknownTheme := if theme.isNone then c.requestedTheme? else none
    edges := d.layers.flatMap scope.edgeIssues
    missed := Token.distinct (tracked.flatMap (·.missed)) }

/-- The layers that are never seen. -/
def hiddenLayers (c : Composition) : List ResolvedLayer :=
  c.layers.filter (·.window.isEmpty c.duration)

private def themeEvent (template requested : String) : Event where
  severity := .warning
  message := "Unknown theme requested, theme tokens use fallbacks"
  details := [("template", .text template), ("requested", .text requested)]

private def missedEvent (template : String) (t : Token) : Event where
  severity := .warning
  message := "Unresolved reference, substituting fallback"
  details := [("template", .text template), ("token", .text t.marker)]

private def hiddenEvent (c : Composition) (l : ResolvedLayer) : Event where
  severity := .warning
  message := "Layer ends before it starts and will never be visible"
  details := [("template", .text c.template), ("layer", .text l.id),
    ("start", .number l.window.start), ("end", .number (l.window.finishAt c.duration))]

private def doneEvent (c : Composition) : Event where
  severity := .debug
  message := "Resolved composition"
  details := [("template", .text c.template), ("theme", .text (Text.quotedOption c.theme)),
    ("duration_secs", .number c.duration), ("layers", .count c.layers.length)]

def events (r : Resolution) : List Event :=
  let c := r.composition
  r.unknownTheme.toList.map (themeEvent c.template)
    ++ r.edges.map EdgeIssue.event
    ++ r.missed.map (missedEvent c.template)
    ++ (hiddenLayers c).map (hiddenEvent c)
    ++ [doneEvent c]

end Resolution

/-- The composition of a definition. -/
def Composition.ofDefinition (d : Definition) (c : Customization) (bounds : DurationBounds) :
    Composition :=
  (Resolution.ofDefinition d c bounds).composition

end MotionTemplate
