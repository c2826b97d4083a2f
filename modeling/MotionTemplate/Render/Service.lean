import MotionTemplate.Render.Polling
import MotionTemplate.Web.Address

/-! The render service over the web. What the service will answer is given as a list, so that a
whole exchange is a value: the requests that were sent and what became of them. -/
namespace MotionTemplate

inductive HttpMethod where
  | get
  | post
deriving DecidableEq

/-- A request as it was sent. -/
structure HttpRequest where
  method : HttpMethod
  path : String
  authorization : Option String
  body : Option Json
deriving DecidableEq

/-- What becomes of a request. -/
inductive HttpReply where
  | answer (status : Nat) (body : String)
  | sendingFails
  | readingFails
deriving DecidableEq

namespace HttpReply

/-- What a host answers that has nothing more to say. -/
def spent : HttpReply := .answer 599 "script exhausted"

/-- The body of a successful answer. -/
def body : HttpReply → Except JobError String
  | .answer status body =>
    if 200 ≤ status ∧ status < 300 then .ok body else .error (.refused status body)
  | .sendingFails | .readingFails => .error .network

/-- The value in the body of a successful answer. -/
def decode {α : Type} (d : Decoder α) (r : HttpReply) : Except JobError α := do
  match Json.decode? d (← r.body) with
  | some a => .ok a
  | none => .error .malformed

/-- The answer as the status of a job. -/
def status (r : HttpReply) : PollAnswer :=
  match r.body with
  | .ok body => .ofText body
  | .error e => ⟨[], .error e⟩

end HttpReply

/-- A client of the service. -/
structure ServiceClient where
  /-- Without slashes at the end. -/
  baseUrl : String
  token : Option String
deriving DecidableEq

/-- An exchange with the service: the requests sent, the replies still to come, what was reported,
and the result. -/
structure Exchange (α : Type) where
  requests : List HttpRequest
  replies : List HttpReply
  events : List Event
  result : Except JobError α

namespace ServiceClient

/-- The name of the client in what it reports. -/
def name : String := "http"

def ofService (s : RenderService) : ServiceClient where
  baseUrl := String.ofList (Text.dropEndWhile (· = '/') s.baseUrl.toList)
  token := s.apiToken

def useUrl (c : ServiceClient) (template : String) : String :=
  c.baseUrl ++ "/templates/" ++ template ++ "/use"

def renderUrl (c : ServiceClient) : String := c.baseUrl ++ "/templates/render"

def statusUrl (c : ServiceClient) (job : String) : String :=
  c.baseUrl ++ "/templates/render/" ++ job ++ "/status"

/-- The request for an address, if one can be sent to it. -/
def request? (c : ServiceClient) (method : HttpMethod) (url : String)
    (body : Option Json) : Option HttpRequest :=
  (Web.requestPath? url).map fun path =>
    { method, path, authorization := c.token.map fun t => Text.trim ("Bearer " ++ t), body }

/-- Sends a request and takes the next reply. -/
def send (c : ServiceClient) (method : HttpMethod) (url : String) (body : Option Json)
    (replies : List HttpReply) : Exchange HttpReply :=
  match c.request? method url body with
  | none => ⟨[], replies, [], .error .network⟩
  | some request => ⟨[request], replies.drop 1, [], .ok (replies.head?.getD .spent)⟩

/-- The answer to the first request: the id of the job to come. -/
def createdDecoder : Decoder String := fun room j => do
  let r ← Decoder.record ["id"] room j
  r.required "id" Decoder.string

def useBody (r : RenderRequest) : Json :=
  .object [("template_id", .string r.template), ("title", .string r.title),
    ("customizations", r.customization.toJson)]

def renderBody (r : RenderRequest) (job : String) : Json :=
  .object [("user_template_id", .string job),
    ("output_format", .string (Decoder.nameOf OutputFormat.names r.format)),
    ("quality", .string (Decoder.nameOf Quality.names r.quality)),
    ("watermark", .bool r.watermark)]

private def submittedEvent (job : String) (s : RenderStatus) : Event where
  severity := .info
  message := "Render job submitted"
  details := [("job_id", .text job), ("status", .text s.state.name)]

/-- Starts a job: the template is taken over under an id, then a render of it is asked for. The
result is the id. -/
def submit (c : ServiceClient) (r : RenderRequest) (replies : List HttpReply) : Exchange String :=
  let use := c.send .post (c.useUrl r.template) (some (useBody r)) replies
  match use.result.bind (·.decode createdDecoder) with
  | .error e => { use with result := .error e }
  | .ok job =>
    let render := c.send .post c.renderUrl (some (renderBody r job)) use.replies
    let accepted := render.result.map HttpReply.status
    let result := accepted.bind (·.result)
    { requests := use.requests ++ render.requests
      replies := render.replies
      events := accepted.toOption.elim [] (·.events)
        ++ (result.toOption.elim [] fun s => [submittedEvent job s])
      result := result.map fun _ => job }

/-- Asks for the status of a job. -/
def status (c : ServiceClient) (job : String) (replies : List HttpReply) :
    Exchange RenderStatus :=
  let sent := c.send .get (c.statusUrl job) none replies
  let answer := sent.result.map HttpReply.status
  { requests := sent.requests
    replies := sent.replies
    events := answer.toOption.elim [] (·.events)
    result := answer.bind (·.result) }

/-- The answers to one question for the status after the other. They end with the one that a host
without further replies gives. -/
def statusAnswers (c : ServiceClient) (job : String) (replies : List HttpReply) :
    List PollAnswer :=
  match Web.requestPath? (c.statusUrl job) with
  | none => [⟨[], .error .network⟩]
  | some _ => (replies ++ [HttpReply.spent]).map HttpReply.status

/-- Polls a job to its end. -/
def poll (c : ServiceClient) (job : Option String) (options : PollOptions)
    (replies : List HttpReply) : Exchange (Option RenderStatus) × PollRun :=
  let run := PollRun.ofAnswers name job options (c.statusAnswers (job.getD "") replies)
  let asked := c.request? .get (c.statusUrl (job.getD "")) none
  ({ requests := asked.elim [] (List.replicate run.requests)
     replies := if asked.isSome then replies.drop run.requests else replies
     events := run.events
     result := run.result.getD (.error .network) }, run)

/-- What rendering came to, for the one who asked for it. -/
structure RenderRun where
  requests : List HttpRequest
  events : List Event
  /-- The statuses that were received on the way. -/
  statuses : List RenderStatus
  waitedMs : Nat
  result : Except Failure RenderStatus

/-- Submits a request and waits until its job is over. -/
def renderAndWait (c : ServiceClient) (r : RenderRequest) (options : PollOptions)
    (replies : List HttpReply) : RenderRun :=
  let submitted := c.submit r replies
  match submitted.result with
  | .error e => ⟨submitted.requests, submitted.events, [], 0, .error e.toFailure⟩
  | .ok job =>
    let (polled, run) := c.poll (some job) options submitted.replies
    { requests := submitted.requests ++ polled.requests
      events := submitted.events ++ polled.events
      statuses := run.statuses
      waitedMs := run.waitedMs
      result := awaited job polled.result }

/-- The client as a diagnostic text, which keeps the token to itself. -/
def describe (c : ServiceClient) : String :=
  "HttpRenderJobClient \x7b base_url: " ++ Text.quoted c.baseUrl ++ ", .. \x7d"

end ServiceClient

end MotionTemplate
