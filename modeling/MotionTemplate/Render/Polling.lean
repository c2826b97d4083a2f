import MotionTemplate.Render.Job

/-! Polling: a job is asked for its status, at intervals, until it is over. -/
namespace MotionTemplate

structure PollOptions where
  intervalMs : Nat
  /-- How many polls without a decision are enough. -/
  maxPolls : Option Nat
deriving DecidableEq

namespace PollOptions

def ofService (s : RenderService) : PollOptions := ⟨s.pollIntervalMs, none⟩

end PollOptions

/-- The answer to one question for a status, with what was reported while it was read. -/
structure PollAnswer where
  events : List Event
  result : Except JobError RenderStatus

/-- An answer read from its text. -/
def PollAnswer.ofText (text : String) : PollAnswer where
  events := RenderStatus.readEvents text
  result := (Json.decode? RenderStatus.decoder text).elim (.error .malformed) .ok

/-- One thing that polling does. -/
inductive PollStep where
  /-- The service is asked for the status. -/
  | ask
  /-- A status that came is passed on to whoever follows the job. -/
  | tell (status : RenderStatus)
  | wait (ms : Nat)
deriving DecidableEq

namespace PollStep

def told? : PollStep → Option RenderStatus
  | tell status => some status
  | ask | wait _ => none

def waited : PollStep → Nat
  | wait ms => ms
  | ask | tell _ => 0

end PollStep

/-- What polling came to. -/
structure PollRun where
  /-- What was done, the first thing first. -/
  steps : List PollStep
  events : List Event
  /-- The final status or the error that ended polling. A job without an id is not polled and has
  neither. Without this the answers ended before polling did. -/
  result : Option (Except JobError (Option RenderStatus))

namespace PollRun

/-- The statuses that were passed on, the first one first. -/
def statuses (r : PollRun) : List RenderStatus := r.steps.filterMap PollStep.told?

/-- How often the service was asked. -/
def requests (r : PollRun) : Nat := r.steps.count .ask

def waitedMs (r : PollRun) : Nat := r.steps.foldl (fun ms step => ms + step.waited) 0

/-- Polling that did and reported something before everything else. -/
def after (steps : List PollStep) (events : List Event) (r : PollRun) : PollRun where
  steps := steps ++ r.steps
  events := events ++ r.events
  result := r.result

def polledEvent (client job : String) (s : RenderStatus) : Event where
  severity := .debug
  message := "Polled render job"
  details := [("client", .text client), ("job_id", .text job), ("status", .text s.state.name),
    ("progress", .count s.progress)]

def endEvent (job : String) (s : RenderStatus) : Event :=
  if s.state = .completed then
    ⟨.info, "Render completed",
      [("job_id", .text job), ("output", .text (Text.quotedOption s.outputUrl))]⟩
  else
    ⟨.warning, "Render failed",
      [("job_id", .text job), ("error", .text (Text.quotedOption s.errorMessage))]⟩

/-- Whether so many polls are enough. -/
def exhausted (options : PollOptions) (polls : Nat) : Bool :=
  options.maxPolls.any fun max => max ≤ polls

/-- Polls on, after so many polls, with the answers still to come. -/
def follow (client job : String) (options : PollOptions) (polls : Nat) :
    List PollAnswer → PollRun
  | [] => ⟨[], [], none⟩
  | answer :: rest =>
    match answer.result with
    | .error e => ⟨[.ask], answer.events, some (.error e)⟩
    | .ok status =>
      let events := answer.events ++ [polledEvent client job status]
      if status.isTerminal then
        ⟨[.ask, .tell status], events ++ [endEvent job status], some (.ok (some status))⟩
      else if exhausted options (polls + 1) then
        ⟨[.ask, .tell status], events, some (.error (.timedOut (polls + 1)))⟩
      else
        (follow client job options (polls + 1) rest).after
          [.ask, .tell status, .wait options.intervalMs] events

/-- Polls a job. Without an id nothing is asked. -/
def ofAnswers (client : String) (job : Option String) (options : PollOptions)
    (answers : List PollAnswer) : PollRun :=
  match job.filter (· ≠ "") with
  | some job => follow client job options 0 answers
  | none => ⟨[], [⟨.debug, "No render job id, skipping poll", []⟩], some (.ok none)⟩

end PollRun

/-- What waiting for a submitted job means for the one who submitted it: the completed status, or
a failure. -/
def awaited (job : String) : Except JobError (Option RenderStatus) → Except Failure RenderStatus
  | .error e => .error e.toFailure
  | .ok none => .error (.render "render service returned an empty job id")
  | .ok (some status) =>
    if status.state = .completed then .ok status
    else
      .error (.render ("job " ++ job ++ " failed: "
        ++ status.errorMessage.getD "no error message"))

end MotionTemplate
