import MotionTemplate.Canvas
import MotionTemplate.Composition.Numeric
import MotionTemplate.Event
import MotionTemplate.Failure
import MotionTemplate.Number.Layout

/-! From the canvas to a display: a container as wide as the display, and lengths multiplied by
the ratio of the widths. -/
namespace MotionTemplate

/-- The keys whose numbers are lengths. -/
def lengthKeys : List String :=
  ["x", "y", "w", "h", "width", "height", "left", "top", "right", "bottom", "fontSize",
   "strokeWidth", "padding", "paddingX", "paddingY", "borderRadius", "letterSpacing", "shadowBlur",
   "blur"]

namespace Json

/-- A value under a key of lengths; one without a number, or whose product has none, stays. -/
def scaleLength (factor : Float) (j : Json) : Json :=
  match j.numeric? with
  | some n => if (n * factor).isFinite then .number (.real (n * factor)) else j
  | none => j

mutual

/-- Scales the lengths in the value of a key. Objects are entered, lists are not. -/
def scaleEntry (factor : Float) (key : String) : Json → Json
  | .object fields => .object (scaleFields factor fields)
  | j => if key ∈ lengthKeys then scaleLength factor j else j

def scaleFields (factor : Float) : List (String × Json) → List (String × Json)
  | [] => []
  | (key, j) :: rest => (key, scaleEntry factor key j) :: scaleFields factor rest

end

end Json

/-- Scales every length in a style or a transform. -/
def scaleMap (factor : Float) (m : KeyMap Json) : KeyMap Json :=
  m.mapWithKey (Json.scaleEntry factor)

/-- Why there is no scale. -/
inductive ScaleError where
  | invalidWidth (width : Float)
  | invalidCanvas (width height : Float)
deriving DecidableEq

namespace ScaleError

def message : ScaleError → String
  | invalidWidth width => "Invalid container width: " ++ Number.Layout.message.render width
  | invalidCanvas width height =>
    "Invalid canvas: " ++ Number.Layout.message.render width ++ "x"
      ++ Number.Layout.message.render height

def toFailure (e : ScaleError) : Failure := .preview e.message

end ScaleError

/-- A canvas shown in a container of some width. -/
structure ScaleMapper where
  canvas : Size
  containerWidth : Float
  /-- Pixels of the display to one of the canvas. -/
  scale : Float
deriving DecidableEq

namespace ScaleMapper

/-- A canvas in a container of its own width. -/
def new (canvas : Size) : Except ScaleError ScaleMapper :=
  if canvas.width.isFinite && canvas.height.isFinite && 0.0 < canvas.width
      && 0.0 < canvas.height then
    .ok ⟨canvas, canvas.width, 1.0⟩
  else .error (.invalidCanvas canvas.width canvas.height)

/-- Takes a new container width and tells whether it is another one. -/
def resize (m : ScaleMapper) (width : Float) : Except ScaleError (ScaleMapper × Bool) :=
  if !(width.isFinite && 0.0 < width) then .error (.invalidWidth width)
  else if width == m.containerWidth then .ok (m, false)
  else .ok ({ m with containerWidth := width, scale := width / m.canvas.width }, true)

/-- What is reported when a width is taken or refused. -/
def resizeEvents (m : ScaleMapper) (width : Float) : List Event :=
  match m.resize width with
  | .error _ =>
    [⟨.warning, "Ignoring invalid container width",
      [("container_width", .number width), ("previous_scale", .number m.scale)]⟩]
  | .ok (_, false) => []
  | .ok (m, true) =>
    [⟨.debug, "Recomputed display scale",
      [("container_width", .number width), ("scale", .number m.scale)]⟩]

/-- The container, in the shape of the canvas. -/
def container (m : ScaleMapper) : Size :=
  ⟨m.containerWidth, m.canvas.heightForWidth m.containerWidth⟩

def toDisplay (m : ScaleMapper) (logical : Float) : Float := logical * m.scale

def toLogical (m : ScaleMapper) (display : Float) : Float := display / m.scale

end ScaleMapper

end MotionTemplate
