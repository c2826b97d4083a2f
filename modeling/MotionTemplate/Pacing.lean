/-! Even pacing of a loop: ticks are let through when an interval has passed since the last one. -/
namespace MotionTemplate

/-- Times in nanoseconds. -/
structure Pacer where
  interval : UInt64
  last : Option UInt64
deriving DecidableEq

namespace Pacer

/-- A pacer for so many ticks a second; a rate of zero counts as one. -/
def ofRate (hz : Nat) : Pacer := ⟨UInt64.ofNat (1000000000 / max hz 1), none⟩

/-- Lets a tick through if it is due. The first one always is. -/
def shouldTick (p : Pacer) (now : UInt64) : Pacer × Bool :=
  match p.last with
  | none => ({ p with last := some now }, true)
  | some last =>
    if last + p.interval ≤ now then ({ p with last := some now }, true) else (p, false)

/-- The time to wait until the next tick is due. -/
def untilNext (p : Pacer) (now : UInt64) : UInt64 :=
  match p.last with
  | none => 0
  | some last => if now ≤ last + p.interval then last + p.interval - now else 0

end Pacer

end MotionTemplate
