import MotionTemplate.Composition.Resolution

/-! Render plans: a background for the whole duration and overlays on top of it, each enabled in
the window of its layer. A plan is data; something else encodes it. -/
namespace MotionTemplate

/-- How media fill their box. -/
inductive Fit where
  /-- Grown and cropped until nothing is left free. -/
  | cover
  /-- Shrunk until nothing is cut off. -/
  | contain
deriving DecidableEq

namespace Fit

def ofName (name : Option String) : Fit := if name = some "contain" then contain else cover

def name : Fit → String
  | cover => "cover"
  | contain => "contain"

end Fit

/-- A text as it is drawn. -/
structure TextDrawing where
  text : String
  fontFamily : String
  fontSize : Float
  color : String
  /-- The colour of a box behind the text. -/
  boxColor : Option String
  boxBorder : Float
deriving DecidableEq

inductive OverlayContent where
  | video (source : String) (fit : Fit)
  /-- Without a size the image keeps its own. -/
  | image (source : String) (size : Option (Float × Float))
  | text (drawing : TextDrawing)
deriving DecidableEq

structure Overlay where
  layer : String
  z : Int
  start : Float
  finish : Float
  x : Float
  y : Float
  opacity : Float
  content : OverlayContent
deriving DecidableEq

structure RenderPlan where
  template : String
  width : Nat
  height : Nat
  fps : Nat
  duration : Float
  background : String
  /-- From bottom to top. -/
  overlays : List Overlay
deriving DecidableEq

namespace OverlayContent

/-- A text that is there and not blank. -/
def shown? (s : Option String) : Option String := s.filter (!Text.isBlankText ·)

/-- A text that is there and not empty. -/
private def nonEmpty? (s : Option String) : Option String := s.filter (· ≠ "")

def imageSize? (l : ResolvedLayer) : Option (Float × Float) :=
  let w := (l.transformNumber? "w").getD 0.0
  let h := (l.transformNumber? "h").getD 0.0
  if 0.0 < w ∧ 0.0 < h then some (w, h) else none

def drawing (l : ResolvedLayer) (text : String) : TextDrawing :=
  let backdrop (key : String) : Option Json :=
    ((l.style.find? "background").bind Json.fields?).bind (KeyMap.lookup key)
  { text
    fontFamily := (nonEmpty? (l.styleString? "fontFamily")).getD "Inter"
    fontSize := (l.styleNumber? "fontSize").getD 48.0
    color := (nonEmpty? (l.styleString? "color")).getD "white"
    boxColor := nonEmpty? ((backdrop "color").bind Json.str?)
    boxBorder := ((backdrop "paddingX").bind Json.numeric?).getD 0.0 / 2.0 }

/-- What a layer contributes; a layer without content contributes nothing, and a solid one is the
background. -/
def ofLayer? (l : ResolvedLayer) : Option OverlayContent :=
  match l.kind with
  | .solid => none
  | .video => (shown? l.sourceString?).map (.video · (.ofName (l.transformString? "fit")))
  | .image => (shown? l.sourceString?).map (.image · (imageSize? l))
  | .text => (shown? l.textString?).map fun text => .text (drawing l text)

def toJson : OverlayContent → Json
  | video source fit =>
    .object [("type", .string "video"), ("source", .string source), ("fit", .string fit.name)]
  | image source size =>
    .object <| [("type", .string "image"), ("source", .string source)]
      ++ Json.optionalField "size" (fun s => .array [.ofFloat s.1, .ofFloat s.2]) size
  | text d =>
    .object <| [("type", .string "text"), ("text", .string d.text),
        ("font_family", .string d.fontFamily), ("font_size", .ofFloat d.fontSize),
        ("color", .string d.color)]
      ++ Json.optionalField "box_color" .string d.boxColor
      ++ [("box_border", .ofFloat d.boxBorder)]

end OverlayContent

namespace Overlay

def ofLayer? (duration : Float) (l : ResolvedLayer) : Option Overlay :=
  (OverlayContent.ofLayer? l).map fun content =>
    { layer := l.id
      z := l.z
      start := l.window.start
      finish := l.window.finishAt duration
      x := (l.transformNumber? "x").getD 0.0
      y := (l.transformNumber? "y").getD 0.0
      opacity := Number.clamp ((l.transformNumber? "opacity").getD 1.0) 0.0 1.0
      content }

/-- The condition under which the renderer draws the overlay. -/
def enableExpression (o : Overlay) : String :=
  "between(t," ++ Number.Layout.message.render o.start ++ ","
    ++ Number.Layout.message.render o.finish ++ ")"

def isEnabled (o : Overlay) (t : Float) : Bool := o.start ≤ t && t ≤ o.finish

def toJson (o : Overlay) : Json :=
  .object [("layer_id", .string o.layer), ("z", .ofInt o.z), ("start", .ofFloat o.start),
    ("end", .ofFloat o.finish), ("x", .ofFloat o.x), ("y", .ofFloat o.y),
    ("opacity", .ofFloat o.opacity), ("content", o.content.toJson)]

end Overlay

namespace RenderPlan

/-- The colour of the lowest solid layer. -/
private def backgroundOf (c : Composition) : String :=
  let solid := c.layers.find? (·.kind = .solid)
  ((solid.bind (·.styleString? "color")).filter (· ≠ "")).getD "black"

def ofComposition (c : Composition) : RenderPlan where
  template := c.template
  width := c.canvas.width.toUInt32.toNat
  height := c.canvas.height.toUInt32.toNat
  fps := c.fps
  duration := c.duration
  background := backgroundOf c
  overlays := c.layers.filterMap (Overlay.ofLayer? c.duration)

/-- What is reported when a plan is built. -/
def events (p : RenderPlan) : List Event :=
  [⟨.debug, "Built render plan", [("template", .text p.template),
    ("overlays", .count p.overlays.length), ("background", .text p.background)]⟩]

def totalFrames (p : RenderPlan) : Nat :=
  (Number.ceilCount (p.duration * Float.ofNat p.fps)).toNat

def enabledAt (p : RenderPlan) (t : Float) : List Overlay := p.overlays.filter (·.isEnabled t)

def toJson (p : RenderPlan) : Json :=
  .object [("template_id", .string p.template), ("width", .ofNat p.width),
    ("height", .ofNat p.height), ("fps", .ofNat p.fps), ("duration_secs", .ofFloat p.duration),
    ("background", .string p.background), ("overlays", .ofList Overlay.toJson p.overlays)]

end RenderPlan

end MotionTemplate
