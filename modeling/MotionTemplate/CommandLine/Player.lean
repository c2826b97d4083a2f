import MotionTemplate.Pacing
import MotionTemplate.Preview.Stage

/-! A preview played on the command line: the loop ticks at an even rate, and whenever other layers
become visible they are listed. -/
namespace MotionTemplate.CommandLine

/-- Something that playing shows. -/
inductive PlayLine where
  | layers (time : Float) (ids : List String)
  /-- A single run is over. -/
  | ended
deriving DecidableEq

structure Player where
  /-- The preview has the first seat. -/
  stage : Stage
  pacer : Pacer
  /-- How long to play, in seconds. -/
  length : Float
  /-- The layers that were listed last. -/
  listed : List String
deriving DecidableEq

/-- What to do next. -/
inductive PlayStep where
  /-- The time is up. -/
  | timeUp
  | wait (nanos : UInt64)
  | shown (lines : List PlayLine) (isLast : Bool)
deriving DecidableEq

namespace Player

def previewer? (p : Player) : Option Previewer := (p.stage.seat? 0).map (·.previewer)

/-- A player of a stage with one preview, which starts to play. Without a usable length it plays
for one pass. -/
def start (stage : Stage) (fps : Nat) (seconds : Option Float) : Player :=
  let stage := (stage.command 0 .play).1
  let pass := (stage.seat? 0).elim 0.0 (·.previewer.playhead.duration)
  { stage
    pacer := .ofRate fps
    length := (seconds.filter fun s => s.isFinite && 0.0 < s).getD pass
    listed := [] }

/-- The lines of the frame composed last. -/
private def linesOf (listed : List String) (p : Previewer) : List PlayLine :=
  let changed := p.lastFrame.filter (·.layerIds ≠ listed)
  changed.toList.map (fun f => .layers f.time f.layerIds)
    ++ if p.playhead.mode = .playing then [] else [.ended]

/-- Ticks if it is time to. -/
def step (p : Player) (now : UInt64) : Player × PlayStep :=
  if p.length ≤ Clock.nanosToSecs now then (p, .timeUp)
  else
    match p.pacer.shouldTick now with
    | (_, false) => (p, .wait (p.pacer.untilNext now))
    | (pacer, true) =>
      let stage := ({ p.stage with clock := ⟨now⟩ }.tick (Clock.nanosToSecs now)).1
      match (stage.seat? 0).map (·.previewer) with
      | none => ({ p with stage, pacer }, .timeUp)
      | some previewer =>
        let listed := (previewer.lastFrame.map (·.layerIds)).getD p.listed
        ({ p with stage, pacer, listed },
          .shown (linesOf p.listed previewer) (previewer.playhead.mode ≠ .playing))

/-- Takes the preview off the stage. -/
def stop (p : Player) : Player := { p with stage := (p.stage.command 0 .unmount).1 }

/-- More steps than playing takes: a tick and a wait for each interval. -/
def stepBound (p : Player) : Nat :=
  let nanos := Number.ceilCount (p.length * 1000000000.0)
  2 * (nanos.toNat / max p.pacer.interval.toNat 1) + 4

/-- Plays on a clock that moves only while the player waits. -/
def playOn : Nat → Player → UInt64 → List PlayLine × Player × UInt64
  | 0, p, now => ([], p, now)
  | fuel + 1, p, now =>
    match p.step now with
    | (p, .timeUp) => ([], p, now)
    | (p, .wait nanos) => playOn fuel p (now + nanos)
    | (p, .shown lines true) => (lines, p, now)
    | (p, .shown lines false) =>
      let (more, last) := playOn fuel p now
      (lines ++ more, last)

/-- Plays to the end. -/
def play (p : Player) : List PlayLine × Player × UInt64 := playOn p.stepBound p 0

end Player

end MotionTemplate.CommandLine
