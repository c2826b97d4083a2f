import MotionTemplate.Clock
import MotionTemplate.Preview.FrameLoop
import MotionTemplate.Preview.Previewer
import MotionTemplate.Template.Storage

/-! A stage: previewers that share one frame loop and one clock, and nothing else. -/
namespace MotionTemplate

/-- Why a previewer could not be mounted. -/
inductive PreviewError where
  | load (e : TemplateError)
  | scale (e : ScaleError)
deriving DecidableEq

namespace PreviewError

def message : PreviewError → String
  | load e => "Failed to load template: " ++ e.message
  | scale e => e.message

def toFailure : PreviewError → Failure
  | load e => e.toFailure
  | scale e => e.toFailure

end PreviewError

/-- A previewer with its subscription to the loop. -/
structure Seat where
  previewer : Previewer
  subscription : Nat
deriving DecidableEq

structure Stage where
  loop : FrameLoop
  clock : Clock
  /-- In the order of mounting; those that were dropped leave a gap. -/
  seats : List (Option Seat)
  /-- What was reported so far. -/
  log : List Event
deriving DecidableEq

namespace Stage

def empty (clock : Clock) : Stage := ⟨.empty, clock, [], []⟩

def seat? (s : Stage) (i : Nat) : Option Seat := (s.seats[i]?).join

def report (s : Stage) (events : List Event) : Stage := { s with log := s.log ++ events }

def put (s : Stage) (i : Nat) (seat : Option Seat) : Stage :=
  { s with seats := s.seats.set i seat }

/-- Mounts a previewer. A failure leaves the loop as it was. -/
def mount (s : Stage) (d : Definition) (c : Customization) (options : PreviewOptions) :
    Stage × Except PreviewError Nat :=
  let s := s.report (Previewer.mountEvents d c options)
  match Previewer.mount d c options with
  | .error e => (s, .error (.scale e))
  | .ok previewer =>
    let (loop, subscription) := s.loop.subscribe
    ({ s with loop, seats := s.seats ++ [some ⟨previewer, subscription⟩] }, .ok s.seats.length)

/-- Loads a definition from a file and mounts it. -/
def load (s : Stage) (files : FileTree) (path : String) (c : Customization)
    (options : PreviewOptions) : Stage × Except PreviewError Nat :=
  match Definition.load files path with
  | .error e => (s, .error (.load e))
  | .ok d => s.mount d c options

/-- Lets the previewer of a subscription have its frame. -/
def frame (s : Stage) (id : Nat) (now : Float) : Stage :=
  let called := s.seats.filter (·.any (·.subscription = id))
  let events := called.flatMap fun seat => seat.elim [] (·.previewer.tickEvents now)
  let ticked (seat : Seat) : Seat :=
    if seat.subscription = id then { seat with previewer := seat.previewer.tick now } else seat
  { s with seats := s.seats.map (Option.map ticked) }.report events

def takeTurn : Nat → Stage → Stage × Nat
  | 0, s => (s, 0)
  | fuel + 1, s =>
    let (loop, step) := s.loop.step
    let s := { s with loop }
    match step with
    | .idle => (s, 0)
    | .finished invoked => (s, invoked)
    | .gone _ | .busy _ => takeTurn fuel s
    | .call id tick =>
      let s := s.frame id tick.now
      takeTurn fuel { s with loop := s.loop.returned }

/-- Ticks the loop and tells how many previewers had a frame. Previewers leave the loop alone, so
every subscriber has one turn. -/
def tick (s : Stage) (now : Float) : Stage × Nat :=
  takeTurn (s.loop.subscribers.length + 1) { s with loop := s.loop.begin now }

/-- Carries out a command of a previewer. Unmounting takes its subscription back. -/
def command (s : Stage) (i : Nat) (c : PreviewCommand) : Stage × PreviewReply :=
  match s.seat? i with
  | none => (s, .done)
  | some seat =>
    let now := s.clock.now
    let (previewer, reply) := seat.previewer.command now c
    let s := s.report (seat.previewer.commandEvents now c)
    let loop := if c = .unmount then s.loop.cancel seat.subscription else s.loop
    ({ s with loop }.put i (some { seat with previewer }), reply)

/-- Drops a previewer, which unmounts it. -/
def drop (s : Stage) (i : Nat) : Stage := ((s.command i .unmount).1).put i none

/-- Drops every previewer. -/
def close (s : Stage) : Stage := (List.range s.seats.length).foldl drop s

end Stage

end MotionTemplate
