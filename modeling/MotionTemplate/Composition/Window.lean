import MotionTemplate.Number.Measure

/-! When a layer is on screen: a closed interval of time, whose end may be that of the whole
composition. Nothing but the time decides. -/
namespace MotionTemplate

/-- The end of a visible window. -/
inductive WindowEnd (α : Type) where
  /-- A fixed time in seconds. -/
  | fixed (secs : α)
  /-- The composition's duration, whatever it is. -/
  | fullDuration
deriving DecidableEq

structure Window (α : Type) where
  start : α
  finish : WindowEnd α
deriving DecidableEq

namespace Window

variable {α : Type}

/-- The end in a composition that lasts `duration`. -/
def finishAt (w : Window α) (duration : α) : α :=
  match w.finish with
  | .fixed secs => secs
  | .fullDuration => duration

/-- A window that ends before it starts is never seen. -/
def isEmpty [LT α] [DecidableLT α] (w : Window α) (duration : α) : Bool :=
  w.finishAt duration < w.start

def isVisible [Measure α] [LE α] [DecidableLE α] (w : Window α) (t duration : α) : Bool :=
  Measure.isFinite t && w.start ≤ t && t ≤ w.finishAt duration

/-- Seconds since the window opened, while it is open. -/
def elapsed? [Measure α] [LE α] [DecidableLE α] [Sub α] (w : Window α) (t duration : α) :
    Option α :=
  if w.isVisible t duration then some (t - w.start) else none

/-- Seconds until the window closes, while it is open. -/
def remaining? [Measure α] [LE α] [DecidableLE α] [Sub α] (w : Window α) (t duration : α) :
    Option α :=
  if w.isVisible t duration then some (w.finishAt duration - t) else none

/-- Seconds until the layer leaves a composition that goes on. A layer that stays to the end never
leaves. -/
def exitRemaining? [Measure α] [LE α] [DecidableLE α] [LT α] [DecidableLT α] [Sub α]
    (w : Window α) (t duration : α) : Option α :=
  match w.finish with
  | .fixed secs => if secs < duration then w.remaining? t duration else none
  | .fullDuration => none

end Window

end MotionTemplate
