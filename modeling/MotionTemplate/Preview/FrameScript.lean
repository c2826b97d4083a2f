import MotionTemplate.KeyMap
import MotionTemplate.Preview.FrameLoop

/-! A host of a frame loop whose subscribers act on the loop themselves. Subscriptions are held by
handles with names; a handle may be given to a subscriber, and is then dropped together with it. -/
namespace MotionTemplate

/-- What the host or a subscriber does. -/
inductive LoopAction where
  /-- Registers a subscriber that does the given actions whenever it is called, and that takes
  along the handle of the given name. -/
  | subscribe (name : String) (actions : List LoopAction) (owned : Option String)
  | cancel (name : String)
  | isActive (name : String)
  | tick (now : Float)
  | count
  | describe
  /-- Lets go of the loop. -/
  | drop

/-- What an action answers. -/
inductive ActionResult where
  | nothing
  | flag (b : Bool)
  | count (n : Nat)
  | counts (subscribers frames : Nat)
  | text (s : String)
deriving DecidableEq

inductive ScriptEntry where
  /-- A subscriber was called. -/
  | called (name : String) (tick : FrameTick)
  /-- A subscriber did something. -/
  | did (name : String) (action : LoopAction) (result : ActionResult)

/-- A subscriber that is still kept. -/
structure ScriptCallback where
  id : Nat
  name : String
  actions : List LoopAction
  owned : Option Nat

structure ScriptHost where
  loop : FrameLoop
  /-- The host still holds the loop. -/
  holds : Bool
  handles : KeyMap Nat
  callbacks : List ScriptCallback
  log : List ScriptEntry
  events : List Event

namespace ScriptHost

def empty : ScriptHost := ⟨.empty, true, ∅, [], [], []⟩

/-- A subscriber is kept while it is registered or a tick in progress may still come to it. -/
def isKept (h : ScriptHost) (c : ScriptCallback) : Bool :=
  h.loop.isActive c.id || h.loop.turns.any fun t => t.pending.contains c.id || t.running = some c.id

/-- Drops the subscribers that are kept no longer, and the handles that go with them. -/
def collect : Nat → ScriptHost → ScriptHost
  | 0, h => h
  | fuel + 1, h =>
    match h.callbacks.find? (!h.isKept ·) with
    | none => h
    | some c =>
      let callbacks := h.callbacks.filter (·.id ≠ c.id)
      let loop := c.owned.elim h.loop h.loop.cancel
      collect fuel { h with callbacks, loop }

def settled (h : ScriptHost) : ScriptHost :=
  let freed := !h.holds && h.loop.turns.isEmpty
  let h := if freed then { h with loop := { h.loop with subscribers := [] } } else h
  collect h.callbacks.length h

def cancelId (h : ScriptHost) (id : Option Nat) : ScriptHost :=
  settled { h with loop := id.elim h.loop h.loop.cancel }

def subscribe (h : ScriptHost) (name : String) (actions : List LoopAction)
    (owned : Option String) : ScriptHost :=
  let taken := owned.bind h.handles.find?
  let handles := owned.elim h.handles h.handles.erase
  let (loop, id) := h.loop.subscribe
  cancelId { h with
    loop
    handles := handles.insert name id
    callbacks := h.callbacks ++ [⟨id, name, actions, taken⟩] } (handles.find? name)

/-- The answers to actions that call no subscriber. -/
def direct (h : ScriptHost) : LoopAction → ScriptHost × ActionResult
  | .subscribe name actions owned =>
    (if h.holds then h.subscribe name actions owned else h, .nothing)
  | .cancel name =>
    let id := h.handles.find? name
    (cancelId { h with handles := h.handles.erase name } id, .flag id.isSome)
  | .isActive name => (h, (h.handles.find? name).elim .nothing fun id => .flag (h.loop.isActive id))
  | .count =>
    (h, if h.holds then .counts h.loop.subscribers.length h.loop.frameIndex else .nothing)
  | .describe => (h, .text (if h.holds then "Some(" ++ h.loop.describe ++ ")" else "None"))
  | .drop => (settled { h with holds := false }, .nothing)
  | .tick _ => (h, .nothing)

mutual

/-- Does an action. The fuel bounds how deep calls may be nested. -/
def perform (fuel : Nat) (h : ScriptHost) (a : LoopAction) : ScriptHost × ActionResult :=
  match fuel with
  | 0 => (h, .nothing)
  | fuel + 1 =>
    match a with
    | .tick now =>
      if h.holds then takeTurn fuel { h with loop := h.loop.begin now } else (h, .nothing)
    | a => h.direct a

/-- Takes the innermost turn to its end. -/
def takeTurn (fuel : Nat) (h : ScriptHost) : ScriptHost × ActionResult :=
  match fuel with
  | 0 => (h, .nothing)
  | fuel + 1 =>
    let (loop, step) := h.loop.step
    let h := { h with loop, events := h.events ++ FrameLoop.stepEvents step }
    match step with
    | .idle => (h, .nothing)
    | .gone _ | .busy _ => takeTurn fuel (settled h)
    | .finished invoked => (settled h, .count invoked)
    | .call id tick =>
      match h.callbacks.find? (·.id = id) with
      | none => (h, .nothing)
      | some c =>
        let h := performAll fuel { h with log := h.log ++ [.called c.name tick] } c.name c.actions
        takeTurn fuel (settled { h with loop := h.loop.returned })

/-- Does the actions of a subscriber. -/
def performAll (fuel : Nat) (h : ScriptHost) (name : String) (actions : List LoopAction) :
    ScriptHost :=
  match fuel with
  | 0 => h
  | fuel + 1 =>
    match actions with
    | [] => h
    | a :: rest =>
      let (h, result) := perform fuel h a
      performAll fuel { h with log := h.log ++ [.did name a result] } name rest

end

/-- Does an action of the host. Calls nested deeper than this are out of reach. -/
def run (h : ScriptHost) (a : LoopAction) : ScriptHost × ActionResult := perform 100000 h a

/-- The number of subscribers, while the host holds the loop. -/
def subscriberCount? (h : ScriptHost) : Option Nat :=
  if h.holds then some h.loop.subscribers.length else none

end ScriptHost

end MotionTemplate
