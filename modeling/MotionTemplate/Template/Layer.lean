import MotionTemplate.Template.Value

/-! Layers: the timed visual elements of a template, and the animations declared on them. -/
namespace MotionTemplate

/-- What a layer draws. -/
inductive LayerKind where
  /-- A flat colour. -/
  | solid
  | video
  /-- A still image or a logo. -/
  | image
  | text
deriving DecidableEq

def LayerKind.names : List (String × LayerKind) :=
  [("solid", .solid), ("video", .video), ("image", .image), ("text", .text)]

/-- How a layer moves while it enters and leaves. -/
inductive AnimationKind where
  | fade
  | slideUp
  | slideDown
  | pop
  | wipe
  | none
deriving DecidableEq

namespace AnimationKind

def names : List (String × AnimationKind) :=
  [("fade", .fade), ("slideUp", .slideUp), ("slideDown", .slideDown), ("pop", .pop),
   ("wipe", .wipe), ("none", .none)]

/-- A name from a newer schema stands for no motion, so that its template still plays. -/
def ofName (name : String) : AnimationKind := (KeyMap.lookup name names).getD .none

def name (k : AnimationKind) : String := Decoder.nameOf names k

end AnimationKind

/-- A declared animation and how long it takes in seconds. -/
structure AnimationSpec (α : Type) where
  kind : AnimationKind
  duration : α
deriving DecidableEq

namespace AnimationSpec

/-- The duration of an animation that declares none. -/
def defaultSecs : Float := 0.5

def decoder : Decoder (AnimationSpec Float) := fun room j => do
  let r ← Decoder.record ["type", "duration"] room j
  return {
    kind := ← r.required "type" (Decoder.string.map AnimationKind.ofName)
    duration := ← r.withDefault "duration" Decoder.float defaultSecs }

def toJson (a : AnimationSpec Float) : Json :=
  .object [("type", .string a.kind.name), ("duration", .ofFloat a.duration)]

end AnimationSpec

/-- A layer as declared. Layers are drawn in ascending `z`, equal ones in their order. -/
structure Layer where
  id : String
  kind : LayerKind
  /-- When the layer appears, in seconds. -/
  start : Value
  /-- When the layer leaves; the duration token stands for the end of the composition. -/
  finish : Value
  z : Int
  source : Option Value
  text : Option Value
  style : KeyMap Value
  transform : KeyMap Value
  /-- Only the first one drives a preview. -/
  animations : List (AnimationSpec Float)
  /-- Descriptors that are resolved but not interpreted. -/
  effects : List Value
deriving DecidableEq

namespace Layer

/-- A layer that spans the whole composition and shows nothing yet. -/
def new (id : String) (kind : LayerKind) : Layer where
  id
  kind
  start := .number 0.0
  finish := .token .currentDuration
  z := 0
  source := none
  text := none
  style := ∅
  transform := ∅
  animations := []
  effects := []

/-- Sets the visible window. Without an end it lasts to the end of the composition. -/
def withWindow (l : Layer) (start : Float) (finish : Option Float) : Layer :=
  { l with start := .number start, finish := finish.elim (.token .currentDuration) .number }

def withZ (l : Layer) (z : Int) : Layer := { l with z }

def withText (l : Layer) (v : Value) : Layer := { l with text := some v }

def withSource (l : Layer) (v : Value) : Layer := { l with source := some v }

def withStyle (l : Layer) (key : String) (v : Value) : Layer :=
  { l with style := l.style.insert key v }

def withTransform (l : Layer) (key : String) (v : Value) : Layer :=
  { l with transform := l.transform.insert key v }

def withAnimation (l : Layer) (kind : AnimationKind) (duration : Float) : Layer :=
  { l with animations := l.animations ++ [⟨kind, duration⟩] }

/-- The animation that drives a preview. -/
def primaryAnimation? (l : Layer) : Option (AnimationSpec Float) := l.animations.head?

/-- The tokens in all fields of a layer. -/
def tokens (l : Layer) : List Token :=
  l.start.tokens ++ l.finish.tokens ++ (l.source.toList ++ l.text.toList).flatMap Value.tokens
    ++ (l.style.values ++ l.transform.values).flatMap Value.tokens
    ++ l.effects.flatMap Value.tokens

def decoder : Decoder Layer := fun room j => do
  let r ← Decoder.record
    ["id", "type", "start", "end", "z", "source", "text", "style", "transform", "animations",
     "effects"] room j
  return {
    id := ← r.required "id" Decoder.string
    kind := ← r.required "type" (Decoder.oneOf LayerKind.names)
    start := ← r.withDefault "start" Value.decoder (.number 0.0)
    finish := ← r.withDefault "end" Value.decoder (.token .currentDuration)
    z := ← r.withDefault "z" (Decoder.intBits 64) 0
    source := ← r.optional "source" Value.decoder
    text := ← r.optional "text" Value.decoder
    style := ← r.withDefault "style" (Decoder.keyMap Value.decoder) ∅
    transform := ← r.withDefault "transform" (Decoder.keyMap Value.decoder) ∅
    animations := ← r.withDefault "animations" (Decoder.list AnimationSpec.decoder) []
    effects := ← r.withDefault "effects" (Decoder.list Value.decoder) [] }

def toJson (l : Layer) : Json :=
  .object <|
    [("id", .string l.id), ("type", .string (Decoder.nameOf LayerKind.names l.kind)),
     ("start", l.start.toJson), ("end", l.finish.toJson), ("z", .ofInt l.z)]
    ++ Json.optionalField "source" Value.toJson l.source
    ++ Json.optionalField "text" Value.toJson l.text
    ++ Json.mapField "style" Value.toJson l.style
    ++ Json.mapField "transform" Value.toJson l.transform
    ++ Json.listField "animations" AnimationSpec.toJson l.animations
    ++ Json.listField "effects" Value.toJson l.effects

end Layer

end MotionTemplate
