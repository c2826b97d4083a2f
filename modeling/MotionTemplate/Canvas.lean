import MotionTemplate.Json.Decoder

/-! Geometry on the canvas. The origin is its upper left corner. -/
namespace MotionTemplate

structure Size where
  width : Float
  height : Float
deriving DecidableEq

namespace Size

/-- Width over height; a size without a positive, finite height has none. -/
def aspectRatio? (s : Size) : Option Float :=
  if 0.0 < s.height ∧ s.width.isFinite ∧ s.height.isFinite then some (s.width / s.height) else none

def scaled (s : Size) (factor : Float) : Size := ⟨s.width * factor, s.height * factor⟩

/-- The height that keeps the aspect ratio at a width. -/
def heightForWidth (s : Size) (width : Float) : Float :=
  if s.width ≤ 0.0 then 0.0 else width * s.height / s.width

def decoder : Decoder Size := fun room j => do
  let r ← Decoder.record ["width", "height"] room j
  return {
    width := ← r.required "width" Decoder.float
    height := ← r.required "height" Decoder.float }

def toJson (s : Size) : Json :=
  .object [("width", .ofFloat s.width), ("height", .ofFloat s.height)]

end Size

structure Rect where
  x : Float
  y : Float
  w : Float
  h : Float
deriving DecidableEq

namespace Rect

/-- All of a canvas. -/
def full (s : Size) : Rect := ⟨0.0, 0.0, s.width, s.height⟩

def right (r : Rect) : Float := r.x + r.w

def bottom (r : Rect) : Float := r.y + r.h

def scaled (r : Rect) (factor : Float) : Rect :=
  ⟨r.x * factor, r.y * factor, r.w * factor, r.h * factor⟩

/-- Whether a point lies inside, edges included. -/
def contains (r : Rect) (px py : Float) : Bool :=
  r.x ≤ px && px ≤ r.right && r.y ≤ py && py ≤ r.bottom

def decoder : Decoder Rect := fun room j => do
  let r ← Decoder.record ["x", "y", "w", "h"] room j
  return {
    x := ← r.required "x" Decoder.float
    y := ← r.required "y" Decoder.float
    w := ← r.required "w" Decoder.float
    h := ← r.required "h" Decoder.float }

def toJson (r : Rect) : Json :=
  .object [("x", .ofFloat r.x), ("y", .ofFloat r.y), ("w", .ofFloat r.w), ("h", .ofFloat r.h)]

end Rect

end MotionTemplate
