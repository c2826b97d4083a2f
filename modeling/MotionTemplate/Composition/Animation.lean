import MotionTemplate.Event
import MotionTemplate.Number.Layout
import MotionTemplate.Number.Measure
import MotionTemplate.Template.Layer

/-! How a layer looks while it enters, rests and leaves. Every kind of animation has three states;
between two of them a layer moves along a curve that starts fast and lands gently. -/
namespace MotionTemplate

/-- What an animation changes about a layer. -/
structure AnimationState (α : Type) where
  /-- From 0, transparent, to 1, opaque. -/
  opacity : α
  /-- The way down in pixels of the canvas. -/
  translateY : α
  /-- The size about the centre of the layer. -/
  scale : α
  /-- The part of the width that is shown, from the left. -/
  clip : α
deriving DecidableEq

/-- The three states of an animation kind. -/
structure AnimationPreset (α : Type) where
  /-- Just before the layer appears. -/
  initial : AnimationState α
  /-- At rest. -/
  animate : AnimationState α
  /-- Just after the layer left. -/
  exit : AnimationState α
deriving DecidableEq

/-- Where a layer is between entering and leaving. -/
inductive AnimationPhase (α : Type) where
  | entering (progress : α)
  | steady
  | exiting (progress : α)
deriving DecidableEq

/-- A state, and how it came about. -/
structure AnimationFrame (α : Type) where
  kind : AnimationKind
  phase : AnimationPhase α
  state : AnimationState α
deriving DecidableEq

/-- The range that the durations of animations are held in, in seconds. -/
structure AnimationSelector (α : Type) where
  minSecs : α
  maxSecs : α
deriving DecidableEq

variable {α : Type}

namespace AnimationState

variable [OfNat α 0] [OfNat α 1]

/-- Fully visible and in place. -/
def rest : AnimationState α := ⟨1, 0, 1, 1⟩

/-- The state at a part of the way between two states. -/
def lerp [Add α] [Sub α] [Mul α] [LT α] [DecidableLT α] (a b : AnimationState α) (t : α) :
    AnimationState α :=
  let t := Number.clamp t 0 1
  let mix (x y : α) : α := x + (y - x) * t
  ⟨mix a.opacity b.opacity, mix a.translateY b.translateY, mix a.scale b.scale,
    mix a.clip b.clip⟩

/-- The state as a style of a display with so many pixels to one of the canvas. -/
def css (s : AnimationState Float) (displayScale : Float) : String :=
  "translateY(" ++ Number.fixed 3 (s.translateY * displayScale) ++ "px) scale("
    ++ Number.fixed 4 s.scale ++ ")"

def toJson (s : AnimationState Float) : Json :=
  .object [("opacity", .ofFloat s.opacity), ("translate_y", .ofFloat s.translateY),
    ("scale", .ofFloat s.scale), ("clip", .ofFloat s.clip)]

end AnimationState

namespace AnimationPreset

variable [OfNat α 0] [OfNat α 1] [OfScientific α] [Neg α]

/-- The way of a slide in pixels of the canvas. -/
def slideDistance : α := 80.0

/-- The size that a pop starts from. -/
def popScale : α := 0.8

private def leaving (s exit : AnimationState α) : AnimationPreset α := ⟨s, .rest, exit⟩

def ofKind : AnimationKind → AnimationPreset α
  | .fade => leaving ⟨0, 0, 1, 1⟩ ⟨0, 0, 1, 1⟩
  | .slideUp => leaving ⟨0, slideDistance, 1, 1⟩ ⟨0, -slideDistance, 1, 1⟩
  | .slideDown => leaving ⟨0, -slideDistance, 1, 1⟩ ⟨0, slideDistance, 1, 1⟩
  | .pop => leaving ⟨0, 0, popScale, 1⟩ ⟨0, 0, popScale, 1⟩
  | .wipe => leaving ⟨0, 0, 1, 0⟩ ⟨0, 0, 1, 0⟩
  | .none => leaving .rest .rest

end AnimationPreset

namespace AnimationPhase

def toJson : AnimationPhase Float → Json
  | entering progress => .object [("phase", .string "entering"), ("progress", .ofFloat progress)]
  | steady => .object [("phase", .string "steady")]
  | exiting progress => .object [("phase", .string "exiting"), ("progress", .ofFloat progress)]

end AnimationPhase

namespace AnimationFrame

/-- A layer without animation. -/
def still [OfNat α 0] [OfNat α 1] : AnimationFrame α := ⟨.none, .steady, .rest⟩

def toJson (f : AnimationFrame Float) : Json :=
  .object [("kind", .string f.kind.name), ("phase", f.phase.toJson), ("state", f.state.toJson)]

end AnimationFrame

/-- The curve of all animations: the cube of what is left, taken from one. -/
def easeOutCubic [OfNat α 0] [OfNat α 1] [Sub α] [Mul α] [LT α] [DecidableLT α] (t : α) : α :=
  let left := 1 - Number.clamp t 0 1
  1 - left * (left * left)

namespace AnimationSelector

/-- The range that applies when none is configured. -/
def standard [OfScientific α] : AnimationSelector α := ⟨0.05, 2.0⟩

/-- A range of positive, finite durations in order. -/
def usable [Measure α] [OfNat α 0] [LT α] [DecidableLT α] [LE α] [DecidableLE α]
    (minSecs maxSecs : α) : Bool :=
  Measure.isFinite minSecs && Measure.isFinite maxSecs && 0 < minSecs && minSecs ≤ maxSecs

/-- A configured range; one that is not usable gives way to the standard one. -/
def new [Measure α] [OfNat α 0] [OfScientific α] [LT α] [DecidableLT α] [LE α] [DecidableLE α]
    (minSecs maxSecs : α) : AnimationSelector α :=
  if usable minSecs maxSecs then ⟨minSecs, maxSecs⟩ else standard

/-- What is reported when a range is configured. -/
def newEvents (minSecs maxSecs : Float) : List Event :=
  if usable minSecs maxSecs then []
  else
    [⟨.warning, "Invalid animation clamp range, using defaults",
      [("min_secs", .number minSecs), ("max_secs", .number maxSecs)]⟩]

/-- Holds a duration in the range. An undefined one takes the least. -/
def clampDuration [Measure α] [LT α] [DecidableLT α] (s : AnimationSelector α) (secs : α) : α :=
  if Measure.isNaN secs then s.minSecs else Number.clamp secs s.minSecs s.maxSecs

section Select

variable [Measure α] [OfNat α 0] [OfNat α 1] [OfScientific α] [Neg α] [Add α] [Sub α] [Mul α]
  [Div α] [LT α] [DecidableLT α]

/-- The phase of an animation of a duration in the range. Entering comes first; leaving starts
when less time remains than the animation takes. -/
def phase (duration elapsed : α) (exitRemaining : Option α) : AnimationPhase α :=
  let elapsed := if Measure.isFinite elapsed then Number.atLeastZero elapsed else 0
  if elapsed < duration then .entering (elapsed / duration)
  else
    match exitRemaining.filter fun r => Measure.isFinite r && r < duration with
    | some remaining => .exiting (Number.clamp (1 - Number.atLeastZero remaining / duration) 0 1)
    | none => .steady

/-- The state of a preset in a phase. -/
def stateIn (preset : AnimationPreset α) : AnimationPhase α → AnimationState α
  | .entering progress => .lerp preset.initial preset.animate (easeOutCubic progress)
  | .steady => preset.animate
  | .exiting progress => .lerp preset.animate preset.exit (easeOutCubic progress)

/-- How a visible layer looks, a time after it appeared and, if it leaves before the composition
ends, a time before it leaves. -/
def select (s : AnimationSelector α) (spec : Option (AnimationSpec α)) (elapsed : α)
    (exitRemaining : Option α) : AnimationFrame α :=
  match spec.filter (·.kind ≠ .none) with
  | none => .still
  | some spec =>
    let phase := phase (s.clampDuration spec.duration) elapsed exitRemaining
    ⟨spec.kind, phase, stateIn (.ofKind spec.kind) phase⟩

end Select

end AnimationSelector

end MotionTemplate
