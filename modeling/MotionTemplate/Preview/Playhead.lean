import MotionTemplate.Event
import MotionTemplate.Json.Value
import MotionTemplate.Number.Measure

/-! The playhead, the only owner of the current time of a preview. It reads no clock: every
operation is told the time on the wall. While it plays, its time is that of an anchor plus the time
on the wall since the anchor was set. -/
namespace MotionTemplate

inductive PlaybackMode where
  | stopped
  | playing
  /-- A gesture holds the time; ticks do not move it. -/
  | scrubbing
deriving DecidableEq

def PlaybackMode.name : PlaybackMode → String
  | stopped => "stopped"
  | playing => "playing"
  | scrubbing => "scrubbing"

structure Playhead (α : Type) where
  duration : α
  time : α
  mode : PlaybackMode
  looping : Bool
  /-- Whether playback goes on when a gesture ends. -/
  resumes : Bool
  anchorWall : α
  anchorTime : α
deriving DecidableEq

namespace Playhead

variable {α : Type} [Measure α] [OfNat α 0] [LT α] [DecidableLT α]

/-- A finite duration above zero. -/
def usableDuration (secs : α) : Bool := Measure.isFinite secs && decide (0 < secs)

/-- A stopped, looping playhead at zero. An unusable duration gives way to 15 seconds. -/
def new [OfScientific α] (duration : α) : Playhead α where
  duration := if usableDuration duration then duration else 15.0
  time := 0
  mode := .stopped
  looping := true
  resumes := false
  anchorWall := 0
  anchorTime := 0

def setLoop (p : Playhead α) (looping : Bool) : Playhead α := { p with looping }

/-- Ties the current time to the time on the wall, if that is finite. -/
def anchor (p : Playhead α) (now : α) : Playhead α :=
  { p with
    anchorWall := if Measure.isFinite now then now else p.anchorWall
    anchorTime := p.time }

variable [Add α] [Sub α] [LE α] [DecidableLE α]

/-- The time that an anchor and the wall give, before it is wrapped or stopped at the end. A wall
that went back counts as standing still. -/
def rawTime (p : Playhead α) (now : α) : α :=
  p.anchorTime + Number.atLeastZero (now - p.anchorWall)

/-- Moves the time on while playing. A loop wraps around, so that its end is its start; a single
run stops at its end. -/
def advance (p : Playhead α) (now : α) : Playhead α :=
  if p.mode ≠ .playing ∨ !Measure.isFinite now then p
  else
    let raw := p.rawTime now
    if p.looping then { p with time := Measure.wrap raw p.duration }
    else if p.duration ≤ raw then { p with time := p.duration, mode := .stopped }
    else { p with time := raw }

/-- Starts playing from the current time. A single run that is over starts again. -/
def play (p : Playhead α) (now : α) : Playhead α :=
  match p.mode with
  | .playing => p
  | .scrubbing => { p with resumes := true }
  | .stopped =>
    let time := if !p.looping ∧ p.duration ≤ p.time then 0 else p.time
    { ({ p with time }).anchor now with mode := .playing }

/-- Stops at the time reached. -/
def pause (p : Playhead α) (now : α) : Playhead α :=
  match p.mode with
  | .playing => { p.advance now with mode := .stopped }
  | .scrubbing => { p with resumes := false }
  | .stopped => p

def toggle (p : Playhead α) (now : α) : Playhead α :=
  if p.mode = .playing then p.pause now else p.play now

/-- Jumps to a time, held between zero and the duration. A time that is not finite is ignored. -/
def scrubTo (p : Playhead α) (t now : α) : Playhead α :=
  if Measure.isFinite t then ({ p with time := Number.clamp t 0 p.duration }).anchor now else p

/-- The time is brought up to now if it runs. -/
def settle (p : Playhead α) (now : α) : Playhead α :=
  if p.mode = .playing then p.advance now else p

/-- Starts a gesture, which holds the time until it ends. -/
def beginScrub (p : Playhead α) (now : α) : Playhead α :=
  if p.mode = .scrubbing then p
  else
    let p := p.settle now
    { p with resumes := p.mode = .playing, mode := .scrubbing }

/-- Ends a gesture. -/
def endScrub (p : Playhead α) (now : α) : Playhead α :=
  if p.mode = .scrubbing then
    ({ p with mode := if p.resumes then .playing else .stopped, resumes := false }).anchor now
  else p

/-- Changes the duration and holds the time in it. An unusable duration is ignored. -/
def setDuration (p : Playhead α) (duration now : α) : Playhead α :=
  if usableDuration duration then
    let p := p.settle now
    ({ p with duration, time := Number.clamp p.time 0 duration }).anchor now
  else p

end Playhead

/-- What can be done to a playhead. -/
inductive Transport (α : Type) where
  | play (now : α)
  | pause (now : α)
  | toggle (now : α)
  | scrubTo (t now : α)
  | beginScrub (now : α)
  | endScrub (now : α)
  | advance (now : α)
  | setDuration (secs now : α)
  | setLoop (looping : Bool)
deriving DecidableEq

namespace Playhead

def act {α : Type} [Measure α] [OfNat α 0] [LT α] [DecidableLT α] [Add α] [Sub α] [LE α]
    [DecidableLE α] (p : Playhead α) : Transport α → Playhead α
  | .play now => p.play now
  | .pause now => p.pause now
  | .toggle now => p.toggle now
  | .scrubTo t now => p.scrubTo t now
  | .beginScrub now => p.beginScrub now
  | .endScrub now => p.endScrub now
  | .advance now => p.advance now
  | .setDuration secs now => p.setDuration secs now
  | .setLoop looping => p.setLoop looping

/-- What is reported when a playhead is made. -/
def newEvents (duration : Float) : List Event :=
  if usableDuration duration then []
  else
    [⟨.warning, "Invalid duration, using fallback", [("duration_secs", .number duration)]⟩]

/-- A run that comes to its end is reported. -/
private def endEvents (before after : Playhead Float) : List Event :=
  if before.mode = .playing ∧ after.mode = .stopped then
    [⟨.debug, "Playback reached the end", []⟩]
  else []

private def playEvents (p : Playhead Float) (now : Float) : List Event :=
  if p.mode = .stopped then
    [⟨.debug, "Playback started", [("at", .number (p.play now).time)]⟩]
  else []

private def pauseEvents (p : Playhead Float) (now : Float) : List Event :=
  if p.mode = .playing then
    endEvents p (p.advance now)
      ++ [⟨.debug, "Playback paused", [("at", .number (p.pause now).time)]⟩]
  else []

/-- What is reported when something is done to a playhead. -/
def events (p : Playhead Float) : Transport Float → List Event
  | .play now => p.playEvents now
  | .pause now => p.pauseEvents now
  | .toggle now => if p.mode = .playing then p.pauseEvents now else p.playEvents now
  | .scrubTo t _ =>
    if t.isFinite then []
    else [⟨.warning, "Ignoring non-finite scrub target", [("target_time", .number t)]⟩]
  | .beginScrub now => if p.mode = .scrubbing then [] else endEvents p (p.settle now)
  | .endScrub _ => []
  | .advance now => endEvents p (p.advance now)
  | .setDuration secs now =>
    if usableDuration secs then endEvents p (p.settle now)
    else [⟨.warning, "Ignoring invalid playhead duration", [("duration_secs", .number secs)]⟩]
  | .setLoop _ => []

/-- The state that a host sees. -/
def toJson (p : Playhead Float) : Json :=
  .object [("current_time", .ofFloat p.time), ("duration_secs", .ofFloat p.duration),
    ("is_playing", .bool (p.mode = .playing)), ("mode", .string p.mode.name),
    ("loop", .bool p.looping)]

end Playhead

end MotionTemplate
