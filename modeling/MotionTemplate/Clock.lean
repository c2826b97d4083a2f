/-! A clock that is moved by hand. It counts nanoseconds in a word that wraps around. -/
namespace MotionTemplate

structure Clock where
  nanos : UInt64
deriving DecidableEq

namespace Clock

def nanosToSecs (nanos : UInt64) : Float := nanos.toFloat / 1000000000.0

/-- Fractions of a nanosecond are dropped; what does not fit becomes the nearest bound. -/
def secsToNanos (secs : Float) : UInt64 := (secs * 1000000000.0).toUInt64

def zero : Clock := ⟨0⟩

/-- The reading in seconds. -/
def now (c : Clock) : Float := nanosToSecs c.nanos

/-- Moves the clock on. Steps back and steps that are not finite are ignored. -/
def advance (c : Clock) (secs : Float) : Clock :=
  if secs.isFinite && 0.0 < secs then ⟨c.nanos + secsToNanos secs⟩ else c

/-- Sets the clock to a time, unless that lies behind or is not finite. -/
def set (c : Clock) (secs : Float) : Clock :=
  if secs.isFinite && 0.0 ≤ secs then ⟨max c.nanos (secsToNanos secs)⟩ else c

/-- A clock that shows a time. -/
def showing (secs : Float) : Clock := zero.set secs

end Clock

end MotionTemplate
