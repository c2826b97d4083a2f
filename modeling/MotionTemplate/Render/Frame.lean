import MotionTemplate.Composition.Animation
import MotionTemplate.Composition.Resolution
import MotionTemplate.Composition.Scale

/-! Frames: what a display shows of a composition at one time, in pixels of the display. -/
namespace MotionTemplate

namespace LayerKind

/-- Kinds that fill the canvas when they name no size. The others keep a size of their own. -/
def fillsCanvas : LayerKind → Bool
  | .solid | .video => true
  | .image | .text => false

end LayerKind

namespace ResolvedLayer

/-- The box of a layer on the canvas. A width or height of zero stands for the layer's own. -/
def box (l : ResolvedLayer) (canvas : Size) : Rect :=
  let full := if l.kind.fillsCanvas then canvas else ⟨0.0, 0.0⟩
  { x := (l.transformNumber? "x").getD 0.0
    y := (l.transformNumber? "y").getD 0.0
    w := ((l.transformNumber? "w").or (l.transformNumber? "width")).getD full.width
    h := ((l.transformNumber? "h").or (l.transformNumber? "height")).getD full.height }

end ResolvedLayer

/-- A visible layer on a display. -/
structure FrameLayer where
  id : String
  kind : LayerKind
  z : Int
  /-- Seconds since the layer became visible. -/
  elapsed : Float
  box : Rect
  source : Option String
  text : Option String
  style : KeyMap Json
  transform : KeyMap Json
  animation : AnimationFrame Float
  /-- The way down of the animation in pixels of the display. -/
  translateY : Float
deriving DecidableEq

structure Frame where
  time : Float
  /-- Pixels of the display to one of the canvas. -/
  scale : Float
  container : Size
  /-- From bottom to top. -/
  layers : List FrameLayer
deriving DecidableEq

namespace FrameLayer

/-- A layer at a time, if it is visible then. -/
def ofLayer? (c : Composition) (t scale : Float) (selector : AnimationSelector Float)
    (l : ResolvedLayer) : Option FrameLayer :=
  (l.window.elapsed? t c.duration).map fun elapsed =>
    let animation :=
      selector.select l.animation elapsed (l.window.exitRemaining? t c.duration)
    { id := l.id
      kind := l.kind
      z := l.z
      elapsed
      box := (l.box c.canvas).scaled scale
      source := l.sourceString?
      text := l.textString?
      style := scaleMap scale l.style
      transform := scaleMap scale l.transform
      animation
      translateY := animation.state.translateY * scale }

/-- A frame shows the layers that are visible. -/
theorem isSome_ofLayer? (c : Composition) (t scale : Float) (selector : AnimationSelector Float)
    (l : ResolvedLayer) :
    (ofLayer? c t scale selector l).isSome = l.window.isVisible t c.duration := by
  rw [ofLayer?, Window.elapsed?, Option.isSome_map]
  cases l.window.isVisible t c.duration <;> rfl

def toJson (l : FrameLayer) : Json :=
  .object <|
    [("id", .string l.id), ("kind", .string (Decoder.nameOf LayerKind.names l.kind)),
     ("z", .ofInt l.z), ("elapsed", .ofFloat l.elapsed), ("rect", l.box.toJson)]
    ++ Json.optionalField "source" .string l.source
    ++ Json.optionalField "text" .string l.text
    ++ [("style", .object l.style.entries), ("transform", .object l.transform.entries),
        ("animation", l.animation.toJson), ("translate_y_px", .ofFloat l.translateY)]

end FrameLayer

namespace Frame

def layer? (f : Frame) (id : String) : Option FrameLayer := f.layers.find? (·.id = id)

def layerIds (f : Frame) : List String := f.layers.map (·.id)

def toJson (f : Frame) : Json :=
  .object [("time_secs", .ofFloat f.time), ("scale", .ofFloat f.scale),
    ("container", f.container.toJson), ("layers", .ofList FrameLayer.toJson f.layers)]

end Frame

namespace Composition

/-- The frame at a time. -/
def frameAt (c : Composition) (t scale : Float) (selector : AnimationSelector Float) : Frame where
  time := t
  scale
  container := c.canvas.scaled scale
  layers := c.layers.filterMap (FrameLayer.ofLayer? c t scale selector)

/-- The number of frames that the composition takes at its own rate. -/
def frameCount (c : Composition) : Nat :=
  (Number.ceilCount (c.duration * Float.ofNat (max c.fps 1))).toNat

/-- Every frame of the composition at its own rate. -/
def timeline (c : Composition) (scale : Float) (selector : AnimationSelector Float) :
    List Frame :=
  (List.range c.frameCount).map fun k =>
    c.frameAt (Float.ofNat k / Float.ofNat (max c.fps 1)) scale selector

end Composition

end MotionTemplate
