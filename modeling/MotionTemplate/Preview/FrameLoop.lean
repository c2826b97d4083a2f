import MotionTemplate.Event

/-! The frame loop: subscribers are called once a tick, in the order in which they subscribed. A
subscriber may do anything to the loop while it is called, even tick again, so a tick is a turn
that is taken step by step, and turns may be nested. -/
namespace MotionTemplate

/-- What a subscriber is told. -/
structure FrameTick where
  index : Nat
  now : Float
deriving DecidableEq

/-- A tick in progress. -/
structure Turn where
  tick : FrameTick
  /-- Those that were registered when the tick began and have not had their turn yet. -/
  pending : List Nat
  running : Option Nat
  /-- How many were called. -/
  invoked : Nat
deriving DecidableEq

structure FrameLoop where
  /-- The id of the next subscription. -/
  nextId : Nat
  /-- The index of the next tick. -/
  frameIndex : Nat
  /-- The registered subscriptions, the oldest first. -/
  subscribers : List Nat
  /-- The ticks in progress, the innermost first. -/
  turns : List Turn
deriving DecidableEq

/-- What a step of a turn comes to. -/
inductive TurnStep where
  /-- No tick is in progress. -/
  | idle
  /-- A subscriber is called; its return is reported by `FrameLoop.returned`. -/
  | call (id : Nat) (tick : FrameTick)
  /-- A subscriber left the loop before its turn came. -/
  | gone (id : Nat)
  /-- A subscriber is running already, in a turn further out. -/
  | busy (id : Nat)
  /-- The turn is over after so many calls. -/
  | finished (invoked : Nat)
deriving DecidableEq

namespace FrameLoop

def empty : FrameLoop := ⟨0, 0, [], []⟩

/-- Registers a subscriber under an id of its own. -/
def subscribe (l : FrameLoop) : FrameLoop × Nat :=
  ({ l with nextId := l.nextId + 1, subscribers := l.subscribers ++ [l.nextId] }, l.nextId)

/-- Takes a subscription back. -/
def cancel (l : FrameLoop) (id : Nat) : FrameLoop :=
  { l with subscribers := l.subscribers.erase id }

def isActive (l : FrameLoop) (id : Nat) : Bool := l.subscribers.contains id

def isRunning (l : FrameLoop) (id : Nat) : Bool := l.turns.any (·.running = some id)

/-- Begins a tick. Those that are registered now will have their turns in it. -/
def begin (l : FrameLoop) (now : Float) : FrameLoop :=
  { l with
    frameIndex := l.frameIndex + 1
    turns := ⟨⟨l.frameIndex, now⟩, l.subscribers, none, 0⟩ :: l.turns }

/-- Gives the next subscriber of the innermost tick its turn. -/
def step (l : FrameLoop) : FrameLoop × TurnStep :=
  match l.turns with
  | [] => (l, .idle)
  | turn :: outer =>
    match turn.pending with
    | [] => ({ l with turns := outer }, .finished turn.invoked)
    | id :: rest =>
      let skipped := { l with turns := { turn with pending := rest } :: outer }
      if !l.isActive id then (skipped, .gone id)
      else if l.isRunning id then (skipped, .busy id)
      else
        let turn := { turn with pending := rest, running := some id, invoked := turn.invoked + 1 }
        ({ l with turns := turn :: outer }, .call id turn.tick)

/-- The subscriber that was called last has returned. -/
def returned (l : FrameLoop) : FrameLoop :=
  match l.turns with
  | [] => l
  | turn :: outer => { l with turns := { turn with running := none } :: outer }

/-- What is reported of a step. -/
def stepEvents : TurnStep → List Event
  | .busy id =>
    [⟨.warning, "Skipping re-entrant frame callback", [("subscriber", .count id)]⟩]
  | _ => []

/-- The loop as a diagnostic text. -/
def describe (l : FrameLoop) : String :=
  "FrameLoop \x7b frame_index: " ++ toString l.frameIndex ++ ", subscribers: "
    ++ toString l.subscribers.length ++ " \x7d"

end FrameLoop

end MotionTemplate
