import Mathlib.Data.List.Basic
import Mathlib.Data.Nat.Find
import MotionTemplate.Proofs.PollingCourse
import MotionTemplate.Render.Service

/-! The exchange with the render service. The requests follow a plan, each one is sent only if the
answer to the one before lets it, and the result is decided by the first final status. -/
namespace MotionTemplate

namespace HttpReply

/-- The reply to a request, the requests being counted from 0. -/
def nth (replies : List HttpReply) (i : Nat) : HttpReply := replies.getD i .spent

/-- The reply is a success, and its text holds this. -/
def Carries {α : Type} (r : HttpReply) (d : Decoder α) (a : α) : Prop :=
  ∃ status body, r = .answer status body ∧ 200 ≤ status ∧ status < 300 ∧
    Json.decode? d body = some a

/-- The status of a job in a reply. -/
def reported? (r : HttpReply) : Option RenderStatus := r.status.status?

variable {α : Type} {d : Decoder α} {r : HttpReply} {a b : α}

theorem Carries.unique (ha : r.Carries d a) (hb : r.Carries d b) : a = b := by
  obtain ⟨_, _, rfl, -, -, ha⟩ := ha
  obtain ⟨_, _, heq, -, -, hb⟩ := hb
  obtain ⟨rfl, rfl⟩ := HttpReply.answer.inj heq
  exact Option.some.inj (ha.symm.trans hb)

private theorem body_eq_ok_iff {text : String} :
    r.body = .ok text ↔ ∃ status, r = .answer status text ∧ 200 ≤ status ∧ status < 300 := by
  cases r with
  | answer status body =>
    rw [HttpReply.body]
    split
    · next h => simp [h]
    · next h => simpa using fun _ h₁ => by omega
  | sendingFails | readingFails => simp [HttpReply.body]

private theorem carries_iff :
    r.Carries d a ↔ ∃ text, r.body = .ok text ∧ Json.decode? d text = some a := by
  simp only [body_eq_ok_iff, Carries]
  constructor
  · rintro ⟨status, text, rfl, hlow, hhigh, h⟩
    exact ⟨text, ⟨status, rfl, hlow, hhigh⟩, h⟩
  · rintro ⟨text, ⟨status, rfl, hlow, hhigh⟩, h⟩
    exact ⟨status, text, rfl, hlow, hhigh, h⟩

theorem decode_eq_ok_iff : r.decode d = .ok a ↔ r.Carries d a := by
  rw [carries_iff, decode]
  cases r.body with
  | error e => simp [bind, Except.bind]
  | ok text =>
    simp only [bind, Except.bind]
    cases h : Json.decode? d text <;> simp [h]

theorem reported?_eq_some_iff {s : RenderStatus} :
    r.reported? = some s ↔ r.Carries RenderStatus.decoder s := by
  rw [carries_iff, reported?, status]
  cases r.body with
  | error e => simp [PollAnswer.status?, Except.toOption]
  | ok text =>
    simp only [PollAnswer.ofText, PollAnswer.status?]
    cases h : Json.decode? RenderStatus.decoder text <;> simp [h, Except.toOption]

end HttpReply

namespace ServiceClient

open HttpReply (nth)

/-- Requests can be sent to the address of the service. -/
def Reachable (c : ServiceClient) : Prop :=
  (Web.requestPath? (c.baseUrl ++ "/templates")).isSome

def useRequest? (c : ServiceClient) (r : RenderRequest) : Option HttpRequest :=
  c.request? .post (c.useUrl r.template) (some (useBody r))

def renderRequest? (c : ServiceClient) (r : RenderRequest) (job : String) : Option HttpRequest :=
  c.request? .post c.renderUrl (some (renderBody r job))

def statusRequest? (c : ServiceClient) (job : String) : Option HttpRequest :=
  c.request? .get (c.statusUrl job) none

/-- The requests for a render in their order, with so many questions for the status. -/
def plan (c : ServiceClient) (r : RenderRequest) (job : String) (questions : Nat) :
    List (Option HttpRequest) :=
  c.useRequest? r :: c.renderRequest? r job :: List.replicate questions (c.statusRequest? job)

/-- The reply to the request with this number lets the next one be sent. -/
def Allows (options : PollOptions) (job : String) : Nat → HttpReply → Prop
  | 0, reply => reply.Carries createdDecoder job
  | 1, reply => (∃ s, reply.Carries RenderStatus.decoder s) ∧ job ≠ ""
  | polls + 2, reply => ∃ s, reply.Carries RenderStatus.decoder s ∧ s.isTerminal = false ∧
      PollRun.exhausted options (polls + 1) = false

variable {c : ServiceClient} {r : RenderRequest} {options : PollOptions}
  {replies : List HttpReply} {job : String}

private theorem isSome_request? (method : HttpMethod) (body : Option Json) (rest : String) :
    (c.request? method (c.baseUrl ++ "/templates/" ++ rest) body).isSome = true ↔ c.Reachable := by
  have hurl : c.baseUrl ++ "/templates/" ++ rest =
      c.baseUrl ++ "/template" ++ String.singleton 's' ++ "/" ++ rest := by
    simp [← String.toList_inj]
  have hcut : c.baseUrl ++ "/templates" = c.baseUrl ++ "/template" ++ String.singleton 's' := by
    simp [← String.toList_inj]
  rw [Reachable, request?, Option.isSome_map, hurl, hcut,
    Web.isSome_requestPath?_append (by decide)]

private theorem isSome_useRequest (c : ServiceClient) (r : RenderRequest) :
    (c.useRequest? r).isSome = true ↔ c.Reachable := by
  have hurl : c.useUrl r.template = c.baseUrl ++ "/templates/" ++ (r.template ++ "/use") := by
    simp [useUrl, ← String.toList_inj]
  rw [useRequest?, hurl, isSome_request?]

private theorem isSome_renderRequest (c : ServiceClient) (r : RenderRequest) (job : String) :
    (c.renderRequest? r job).isSome = true ↔ c.Reachable := by
  have hurl : c.renderUrl = c.baseUrl ++ "/templates/" ++ "render" := by
    simp [renderUrl, ← String.toList_inj]
  rw [renderRequest?, hurl, isSome_request?]

private theorem isSome_statusRequest (c : ServiceClient) (job : String) :
    (c.statusRequest? job).isSome = true ↔ c.Reachable := by
  have hurl : c.statusUrl job = c.baseUrl ++ "/templates/" ++ ("render/" ++ job ++ "/status") := by
    simp [statusUrl, ← String.toList_inj]
  rw [statusRequest?, hurl, isSome_request?]

private theorem send_of_none {method : HttpMethod} {url : String} {body : Option Json}
    (h : c.request? method url body = none) :
    c.send method url body replies = ⟨[], replies, [], .error .network⟩ := by
  rw [send, h]

private theorem send_of_some {method : HttpMethod} {url : String} {body : Option Json}
    {q : HttpRequest} (h : c.request? method url body = some q) :
    c.send method url body replies =
      ⟨[q], replies.drop 1, [], .ok (nth replies 0)⟩ := by
  rw [send, h]
  cases replies <;> rfl

private theorem nth_drop (k i : Nat) :
    nth (replies.drop k) i = nth replies (i + k) := by
  simp [nth, List.getD_eq_getElem?_getD, Nat.add_comm]

/-- An answer does not end polling exactly when it lets the next question be sent. -/
private theorem allows_iff_not_ends {polls : Nat} {reply : HttpReply} :
    Allows options job (polls + 2) reply ↔ reply.status.ends options (polls + 1) = false := by
  simp only [Allows, ← HttpReply.reported?_eq_some_iff, HttpReply.reported?]
  rw [PollAnswer.ends, Bool.or_eq_false_iff, PollAnswer.decisive, PollAnswer.status?]
  cases reply.status.result with
  | error e => simp [Except.toOption]
  | ok status => simp [Except.toOption]

private theorem statuses_split {n : Nat} (hn : n ≤ replies.length) :
    ∃ rest, (replies ++ [HttpReply.spent]).map HttpReply.status =
      ((List.range n).map fun k => (nth replies k).status) ++
        (nth replies n).status :: rest := by
  induction replies generalizing n with
  | nil =>
    obtain rfl : n = 0 := Nat.le_zero.1 hn
    exact ⟨[], rfl⟩
  | cons reply replies ih =>
    cases n with
    | zero => exact ⟨_, rfl⟩
    | succ n =>
      obtain ⟨rest, hrest⟩ := ih (Nat.le_of_succ_le_succ hn)
      refine ⟨rest, ?_⟩
      rw [List.cons_append, List.map_cons, hrest, List.range_succ_eq_map, List.map_cons,
        List.map_map]
      rfl

/-- Polling meets a first reply that ends it, at the latest when the replies are spent. -/
private theorem exists_first_end (options : PollOptions) (replies : List HttpReply) :
    ∃ n ≤ replies.length,
      (∀ k < n, (nth replies k).status.ends options (k + 1) = false) ∧
        (nth replies n).status.ends options (n + 1) = true := by
  have hspent : (nth replies replies.length).status.ends options (replies.length + 1) =
      true := by
    rw [nth, List.getD_eq_getElem?_getD, List.getElem?_eq_none le_rfl]
    rfl
  have hexists : ∃ n, (nth replies n).status.ends options (n + 1) = true := ⟨_, hspent⟩
  refine ⟨Nat.find hexists, Nat.find_min' hexists hspent, fun k hk => ?_, Nat.find_spec hexists⟩
  exact Bool.eq_false_iff.2 (Nat.find_min hexists hk)

private theorem statusAnswers_of_reachable (hreach : c.Reachable) :
    c.statusAnswers job replies = (replies ++ [HttpReply.spent]).map HttpReply.status := by
  obtain ⟨q, hq⟩ := Option.isSome_iff_exists.1 ((isSome_statusRequest c job).2 hreach)
  obtain ⟨path, hpath, -⟩ := Option.map_eq_some_iff.1 hq
  rw [statusAnswers, hpath]

variable (options replies) in
/-- Polling of a job that has an id. -/
private theorem poll_course (hreach : c.Reachable) (hjob : job ≠ "") :
    let polled := c.poll (some job) options replies
    ∃ n, (∀ k < n, (nth replies k).status.ends options (k + 1) = false) ∧
      (nth replies n).status.ends options (n + 1) = true ∧
      polled.1.requests.map some = List.replicate (n + 1) (c.statusRequest? job) ∧
      polled.2.statuses = (List.range (n + 1)).filterMap (fun k =>
        (nth replies k).reported?) ∧
      polled.1.result = (nth replies n).status.outcome (n + 1) := by
  intro polled
  obtain ⟨n, hn, hgoes, hends⟩ := exists_first_end options replies
  obtain ⟨rest, hsplit⟩ := statuses_split hn
  let before := (List.range n).map fun k => (nth replies k).status
  have hlength : before.length = n := by
    rw [List.length_map, List.length_range]
  have hbefore : PollRun.GoesOn options 0 before := by
    intro i a hi
    obtain ⟨hlt, rfl⟩ := List.getElem?_eq_some_iff.1 hi
    rw [List.getElem_map, List.getElem_range, Nat.zero_add]
    exact hgoes i (hlength ▸ hlt)
  have hlast : (nth replies n).status.ends options (0 + before.length + 1) = true := by
    rw [hlength, Nat.zero_add]
    exact hends
  obtain ⟨hrequests, hstatuses, hresult⟩ := PollRun.follow_ended name job rest hbefore hlast
  obtain ⟨q, hq⟩ := Option.isSome_iff_exists.1 ((isSome_statusRequest c job).2 hreach)
  have hrun : polled.2 = PollRun.follow name job options 0
      (before ++ (nth replies n).status :: rest) := by
    rw [← hsplit, ← statusAnswers_of_reachable hreach]
    exact PollRun.ofAnswers_some hjob
  refine ⟨n, hgoes, hends, ?_, ?_, ?_⟩
  · change (((c.statusRequest? job).elim [] (List.replicate polled.2.requests)).map some) = _
    rw [hq, Option.elim_some, hrun, hrequests, hlength, List.map_replicate]
  · rw [hrun, hstatuses, List.range_succ, List.filterMap_append, List.filterMap_append,
      List.filterMap_map]
    rfl
  · change polled.2.result.getD (.error .network) = _
    rw [hrun, hresult, hlength, Nat.zero_add]
    rfl

/-- How a render can go: what is asked, which statuses come, and the result. -/
private inductive Course (c : ServiceClient) (r : RenderRequest) (options : PollOptions)
    (replies : List HttpReply) :
    String → List (Option HttpRequest) → List RenderStatus → Except Failure RenderStatus → Prop
  | unreachable (m : String) : ¬ c.Reachable →
      Course c r options replies "" [] [] (.error (.render m))
  | refused (m : String) : c.Reachable →
      (∀ id, ¬ Allows options id 0 (nth replies 0)) →
      Course c r options replies "" [c.useRequest? r] [] (.error (.render m))
  | unaccepted (job m : String) : c.Reachable → Allows options job 0 (nth replies 0) →
      (∀ s, ¬ (nth replies 1).Carries RenderStatus.decoder s) →
      Course c r options replies job (c.plan r job 0) [] (.error (.render m))
  | nameless : c.Reachable → Allows options "" 0 (nth replies 0) →
      Course c r options replies "" (c.plan r "" 0) []
        (.error (.render "render service returned an empty job id"))
  | polled (job : String) (n : Nat) : c.Reachable →
      (∀ k < n + 2, Allows options job k (nth replies k)) →
      ¬ Allows options job (n + 2) (nth replies (n + 2)) →
      Course c r options replies job (c.plan r job (n + 1))
        ((List.range (n + 1)).filterMap fun k => (nth replies (k + 2)).reported?)
        (awaited job ((nth replies (n + 2)).status.outcome (n + 1)))

variable (replies) in
private theorem submit_unreachable (huse : c.useRequest? r = none) :
    (c.submit r replies).requests = [] ∧ (c.submit r replies).result = .error .network := by
  rw [submit, send_of_none huse]
  exact ⟨rfl, rfl⟩

private theorem submit_refused {use : HttpRequest} {e : JobError}
    (huse : c.useRequest? r = some use)
    (h : (nth replies 0).decode createdDecoder = .error e) :
    (c.submit r replies).requests = [use] ∧ (c.submit r replies).result = .error e := by
  rw [submit, send_of_some huse]
  simp only [Except.bind, h]
  exact ⟨trivial, trivial⟩

private theorem submit_created {use render : HttpRequest}
    (huse : c.useRequest? r = some use) (hrender : c.renderRequest? r job = some render)
    (h : (nth replies 0).decode createdDecoder = .ok job) :
    (c.submit r replies).requests = [use, render] ∧
      (c.submit r replies).replies = replies.drop 2 ∧
      (c.submit r replies).result = (nth replies 1).status.result.map fun _ => job := by
  rw [submit, send_of_some huse]
  simp only [Except.bind, h, send_of_some hrender, Except.map]
  refine ⟨rfl, List.drop_drop, ?_⟩
  rw [nth_drop]

variable (options) in
private theorem renderAndWait_of_error {e : JobError} (h : (c.submit r replies).result = .error e) :
    let run := c.renderAndWait r options replies
    run.requests = (c.submit r replies).requests ∧ run.statuses = [] ∧
      run.result = .error (.render e.message) := by
  simp only [renderAndWait, h]
  exact ⟨trivial, trivial, rfl⟩

variable (options) in
private theorem renderAndWait_of_ok (h : (c.submit r replies).result = .ok job) :
    let run := c.renderAndWait r options replies
    let polled := c.poll (some job) options (c.submit r replies).replies
    run.requests = (c.submit r replies).requests ++ polled.1.requests ∧
      run.statuses = polled.2.statuses ∧ run.result = awaited job polled.1.result := by
  simp only [renderAndWait, h]
  exact ⟨trivial, trivial, trivial⟩

variable (c options replies) in
/-- A job without an id is not polled. -/
private theorem poll_nameless :
    let polled := c.poll (some "") options replies
    polled.1.requests = [] ∧ polled.2.statuses = [] ∧ polled.1.result = .ok none := by
  refine ⟨?_, rfl, rfl⟩
  change (c.statusRequest? "").elim [] (List.replicate 0) = []
  cases c.statusRequest? "" <;> rfl

/-- How a render goes on that was accepted. -/
private theorem course_of_submitted {s : RenderStatus} (hreach : c.Reachable)
    (hid : Allows options job 0 (nth replies 0))
    (hs : (nth replies 1).Carries RenderStatus.decoder s)
    (hplan : (c.submit r replies).requests.map some = c.plan r job 0)
    (hreplies : (c.submit r replies).replies = replies.drop 2)
    (hok : (c.submit r replies).result = .ok job) :
    let run := c.renderAndWait r options replies
    Course c r options replies job (run.requests.map some) run.statuses run.result := by
  intro run
  obtain ⟨hrequests, hstatuses, hresult⟩ := renderAndWait_of_ok options hok
  rw [hrequests, hstatuses, hresult, List.map_append, hplan, hreplies]
  by_cases hjob : job = ""
  · subst hjob
    obtain ⟨hnone, hstatuses, hresult⟩ :=
      poll_nameless c options (replies.drop 2)
    rw [hnone, hstatuses, hresult]
    exact .nameless hreach hid
  · obtain ⟨n, hgoes, hends, hrequests, hstatuses, hresult⟩ :=
      poll_course options (replies.drop 2) hreach hjob
    rw [hrequests, hstatuses, hresult]
    simp only [nth_drop] at hgoes hends ⊢
    refine .polled job n hreach (fun k hk => ?_) ?_
    · match k with
      | 0 => exact hid
      | 1 => exact ⟨⟨s, hs⟩, hjob⟩
      | k + 2 => exact allows_iff_not_ends.2 (hgoes k (by omega))
    · rw [allows_iff_not_ends, hends]
      exact Bool.noConfusion

/-- Every render goes one of these ways. -/
private theorem course_renderAndWait (c : ServiceClient) (r : RenderRequest)
    (options : PollOptions) (replies : List HttpReply) :
    let run := c.renderAndWait r options replies
    ∃ job, Course c r options replies job (run.requests.map some) run.statuses run.result := by
  intro run
  by_cases hreach : c.Reachable
  · obtain ⟨use, huse⟩ := Option.isSome_iff_exists.1 ((isSome_useRequest c r).2 hreach)
    cases hcreated : (nth replies 0).decode createdDecoder with
    | error e =>
      obtain ⟨hasked, hrefused⟩ := submit_refused huse hcreated
      obtain ⟨hrequests, hstatuses, hresult⟩ := renderAndWait_of_error options hrefused
      rw [hrequests, hstatuses, hresult, hasked, List.map_singleton, ← huse]
      refine ⟨"", .refused _ hreach fun id hid => ?_⟩
      rw [HttpReply.decode_eq_ok_iff.2 hid] at hcreated
      cases hcreated
    | ok job =>
      have hid : Allows options job 0 (nth replies 0) := HttpReply.decode_eq_ok_iff.1 hcreated
      obtain ⟨render, hrender⟩ :=
        Option.isSome_iff_exists.1 ((isSome_renderRequest c r job).2 hreach)
      obtain ⟨hasked, hreplies, hsubmitted⟩ := submit_created huse hrender hcreated
      have hplan : (c.submit r replies).requests.map some = c.plan r job 0 := by
        rw [hasked, plan, huse, hrender]
        rfl
      refine ⟨job, ?_⟩
      cases haccepted : (nth replies 1).status.result with
      | error e =>
        rw [haccepted] at hsubmitted
        obtain ⟨hrequests, hstatuses, hresult⟩ :=
          renderAndWait_of_error options hsubmitted
        rw [hrequests, hstatuses, hresult, hplan]
        refine .unaccepted job _ hreach hid fun s hs => ?_
        rw [← HttpReply.reported?_eq_some_iff, HttpReply.reported?, PollAnswer.status?,
          haccepted] at hs
        cases hs
      | ok s =>
        rw [haccepted] at hsubmitted
        have hs : (nth replies 1).Carries RenderStatus.decoder s := by
          rw [← HttpReply.reported?_eq_some_iff, HttpReply.reported?, PollAnswer.status?, haccepted]
          rfl
        exact course_of_submitted hreach hid hs hplan hreplies hsubmitted
  · have huse : c.useRequest? r = none := by
      rwa [← Option.not_isSome_iff_eq_none, isSome_useRequest]
    obtain ⟨hasked, hunreached⟩ := submit_unreachable replies huse
    obtain ⟨hrequests, hstatuses, hresult⟩ := renderAndWait_of_error options hunreached
    rw [hrequests, hstatuses, hresult, hasked]
    exact ⟨"", .unreachable _ hreach⟩

/-- What is promised of a render. The first reply gives the id of the job, and the second one
acknowledges it with a status that does not count. The statuses polled come in those after them. -/
structure Protocol (c : ServiceClient) (r : RenderRequest) (options : PollOptions)
    (replies : List HttpReply) (job : String) (run : RenderRun) : Prop where
  /-- The requests are those of the plan, as far as they go. -/
  planned : ∃ n, run.requests.map some <+: c.plan r job n
  /-- The second request carries the id. -/
  carries_job : ∀ q, run.requests[1]? = some q →
    (q.body.bind Json.fields?).bind (KeyMap.lookup "user_template_id") = some (.string job)
  /-- A request is sent exactly when the reply to every request before it lets it. -/
  sent_iff : ∀ i, i < run.requests.length ↔
    c.Reachable ∧ ∀ k < i, Allows options job k (nth replies k)
  /-- The statuses polled are those in the replies to the questions, each in its place. -/
  polled_iff : ∀ k s, run.statuses[k]? = some s ↔
    k + 2 < run.requests.length ∧ (nth replies (k + 2)).Carries RenderStatus.decoder s
  /-- The result is the first final status polled, if the job is completed by it. -/
  ok_iff : ∀ s, run.result = .ok s ↔
    run.statuses.find? (·.isTerminal) = some s ∧ s.state = .completed
  /-- A job that failed is named, with the message of the service. -/
  failed : ∀ s, run.statuses.find? (·.isTerminal) = some s → s.state = .failed →
    run.result = .error (.render
      ("job " ++ job ++ " failed: " ++ s.errorMessage.getD "no error message"))
  /-- An empty id is found out after the two requests that submit. -/
  nameless : c.Reachable → (nth replies 0).Carries createdDecoder "" →
    run.requests.length = 2 ∧ ∃ m, run.result = .error (.render m)

variable {requests : List (Option HttpRequest)} {statuses : List RenderStatus}
  {result : Except Failure RenderStatus}

private theorem length_plan (n : Nat) : (c.plan r job n).length = n + 2 := by
  simp [plan]

private theorem Course.planned (h : Course c r options replies job requests statuses result) :
    ∃ n, requests <+: c.plan r job n := by
  cases h with
  | unreachable => exact ⟨0, List.nil_prefix⟩
  | refused => exact ⟨0, List.prefix_append [_] _⟩
  | unaccepted | nameless => exact ⟨0, List.prefix_rfl⟩
  | polled _ n => exact ⟨n + 1, List.prefix_rfl⟩

private theorem Course.carries_job (h : Course c r options replies job requests statuses result)
    {q : HttpRequest} (hq : requests[1]? = some (some q)) :
    (q.body.bind Json.fields?).bind (KeyMap.lookup "user_template_id") = some (.string job) := by
  obtain ⟨n, rest, hplan⟩ := h.planned
  have hsecond : c.renderRequest? r job = some q := by
    have hlt : 1 < requests.length := (List.getElem?_eq_some_iff.1 hq).1
    have hplanned : (c.plan r job n)[1]? = some (some q) := by
      rw [← hplan, List.getElem?_append_left hlt, hq]
    exact Option.some.inj hplanned
  obtain ⟨path, -, rfl⟩ := Option.map_eq_some_iff.1 hsecond
  rfl

/-- Of conditions that hold up to a first one that fails. -/
private theorem lt_succ_iff_of_first {P : Nat → Prop} {n : Nat} (hpass : ∀ k < n, P k)
    (hstop : ¬ P n) (i : Nat) : i < n + 1 ↔ ∀ k < i, P k := by
  constructor
  · intro hi k hk
    exact hpass k (by omega)
  · intro h
    by_contra hi
    exact hstop (h n (by omega))

private theorem Course.sent_iff (h : Course c r options replies job requests statuses result)
    (i : Nat) : i < requests.length ↔
      c.Reachable ∧ ∀ k < i, Allows options job k (nth replies k) := by
  cases h with
  | unreachable _ hreach => simp [hreach]
  | refused _ hreach hrefused =>
    rw [and_iff_right hreach]
    exact lt_succ_iff_of_first (fun k hk => absurd hk (Nat.not_lt_zero k)) (hrefused "") i
  | unaccepted _ _ hreach hid hrefused =>
    rw [and_iff_right hreach, length_plan]
    refine lt_succ_iff_of_first (fun k hk => ?_) (fun hstatus => ?_) i
    · rwa [Nat.lt_one_iff.1 hk]
    · obtain ⟨⟨s, hs⟩, -⟩ := hstatus
      exact hrefused s hs
  | nameless hreach hid =>
    rw [and_iff_right hreach, length_plan]
    refine lt_succ_iff_of_first (fun k hk => ?_) (fun hstatus => hstatus.2 rfl) i
    rwa [Nat.lt_one_iff.1 hk]
  | polled _ n hreach hallows hends =>
    rw [and_iff_right hreach, length_plan]
    exact lt_succ_iff_of_first hallows hends i

private theorem map_some_filterMap {α β : Type} {f : α → Option β} {l : List α}
    (h : ∀ a ∈ l, (f a).isSome = true) : (l.filterMap f).map some = l.map f := by
  calc (l.filterMap f).map some = l.filterMap fun a => (f a).map some := List.map_filterMap
    _ = l.filterMap (some ∘ f) := by
      apply List.filterMap_congr
      intro a ha
      obtain ⟨b, hb⟩ := Option.isSome_iff_exists.1 (h a ha)
      rw [hb, Option.map_some, Function.comp_apply, hb]
    _ = l.map f := by rw [List.filterMap_eq_map]

/-- Where only the last value may be missing, every other one has its place. -/
private theorem getElem?_filterMap_range {α : Type} {f : Nat → Option α} {n : Nat}
    (h : ∀ k < n, (f k).isSome = true) (k : Nat) :
    ((List.range (n + 1)).filterMap f)[k]? = if k < n + 1 then f k else none := by
  let before := (List.range n).filterMap f
  have hbefore : before.map some = (List.range n).map f :=
    map_some_filterMap fun k hk => h k (List.mem_range.1 hk)
  have hlength : before.length = n := by
    have hsize : (before.map some).length = before.length := List.length_map some
    rw [← hsize, hbefore, List.length_map, List.length_range]
  rw [List.range_succ, List.filterMap_append, List.getElem?_append, hlength]
  split
  · next hk =>
    have hplace : (before.map some)[k]? = some (f k) := by
      rw [hbefore, List.getElem?_map, List.getElem?_range hk, Option.map_some]
    rw [if_pos (by omega)]
    rw [List.getElem?_map] at hplace
    obtain ⟨a, ha, hfa⟩ := Option.map_eq_some_iff.1 hplace
    exact ha.trans hfa
  · next hk =>
    obtain rfl | hgt : k = n ∨ n < k := by omega
    · rw [if_pos (by omega), Nat.sub_self]
      cases hf : f k <;> simp [hf]
    · have hshort : ([n].filterMap f).length ≤ 1 := List.length_filterMap_le f [n]
      rw [if_neg (by omega), List.getElem?_eq_none (by omega)]

private theorem Course.polled_iff (h : Course c r options replies job requests statuses result)
    (k : Nat) (s : RenderStatus) :
    statuses[k]? = some s ↔
      k + 2 < requests.length ∧ (nth replies (k + 2)).Carries RenderStatus.decoder s := by
  cases h with
  | unreachable | refused => simp
  | unaccepted | nameless =>
    have hnone : ¬ k + 2 < 0 + 2 := by omega
    simp [length_plan, hnone]
  | polled _ n hreach hallows =>
    have hsome : ∀ i < n, (nth replies (i + 2)).reported?.isSome = true := by
      intro i hi
      obtain ⟨t, ht, -⟩ := hallows (i + 2) (by omega)
      rw [HttpReply.reported?_eq_some_iff.2 ht, Option.isSome_some]
    rw [getElem?_filterMap_range hsome, length_plan, ← HttpReply.reported?_eq_some_iff]
    split <;> simp <;> omega

/-- Among the statuses polled only the last one can be final. -/
private theorem find?_polled {n : Nat}
    (hallows : ∀ k < n + 2, Allows options job k (nth replies k)) :
    ((List.range (n + 1)).filterMap fun k => (nth replies (k + 2)).reported?).find?
        (·.isTerminal) =
      (nth replies (n + 2)).reported?.filter (·.isTerminal) := by
  have hbefore : ((List.range n).filterMap fun k =>
      (nth replies (k + 2)).reported?).find? (·.isTerminal) = none := by
    rw [List.find?_eq_none]
    intro s hs
    obtain ⟨k, hk, hreported⟩ := List.mem_filterMap.1 hs
    obtain ⟨t, ht, hterminal, -⟩ := hallows (k + 2) (by simpa using hk)
    rw [HttpReply.reported?_eq_some_iff] at hreported
    rw [hreported.unique ht, hterminal]
    exact Bool.noConfusion
  rw [List.range_succ, List.filterMap_append, List.find?_append, hbefore, Option.none_or]
  cases h : (nth replies (n + 2)).reported? with
  | none => simp [h]
  | some s => cases hs : s.isTerminal <;> simp [h, hs, Option.filter]

/-- What the last answer comes to for the one who waits. -/
private theorem awaited_outcome (job : String) (a : PollAnswer) (polls : Nat) :
    (∃ s, a.status?.filter (·.isTerminal) = some s ∧
      awaited job (a.outcome polls) = awaited job (.ok (some s))) ∨
    a.status?.filter (·.isTerminal) = none ∧ ∃ m, awaited job (a.outcome polls) = .error m := by
  obtain ⟨events, result⟩ := a
  cases result with
  | error e => exact .inr ⟨rfl, _, rfl⟩
  | ok s =>
    cases hs : s.isTerminal with
    | true =>
      left
      refine ⟨s, ?_, ?_⟩
      · simp [PollAnswer.status?, Except.toOption, hs]
      · simp [PollAnswer.outcome, PollAnswer.decisive, hs, Except.map]
    | false =>
      right
      refine ⟨?_, (JobError.timedOut polls).toFailure, ?_⟩
      · simp [PollAnswer.status?, Except.toOption, hs]
      · simp [PollAnswer.outcome, PollAnswer.decisive, hs, awaited]

private theorem awaited_eq_ok_iff {s t : RenderStatus} :
    awaited job (.ok (some s)) = .ok t ↔ s = t ∧ t.state = .completed := by
  rw [awaited]
  split
  · next h =>
    constructor
    · rintro heq
      obtain rfl := Except.ok.inj heq
      exact ⟨rfl, h⟩
    · rintro ⟨rfl, -⟩
      rfl
  · next h =>
    constructor
    · exact fun heq => nomatch heq
    · rintro ⟨rfl, hcompleted⟩
      exact absurd hcompleted h

private theorem Course.ok_iff (h : Course c r options replies job requests statuses result)
    (s : RenderStatus) :
    result = .ok s ↔ statuses.find? (·.isTerminal) = some s ∧ s.state = .completed := by
  cases h with
  | unreachable | refused | unaccepted | nameless => simp
  | polled _ n hreach hallows =>
    rw [find?_polled hallows, HttpReply.reported?]
    obtain ⟨t, ht, hresult⟩ | ⟨hnone, m, hresult⟩ :=
      awaited_outcome job (nth replies (n + 2)).status (n + 1)
    · rw [hresult, ht, awaited_eq_ok_iff, Option.some_inj]
    · simp [hresult, hnone]

private theorem Course.failed (h : Course c r options replies job requests statuses result)
    {s : RenderStatus} (hfind : statuses.find? (·.isTerminal) = some s)
    (hs : s.state = .failed) :
    result = .error (.render
      ("job " ++ job ++ " failed: " ++ s.errorMessage.getD "no error message")) := by
  cases h with
  | unreachable | refused | unaccepted | nameless => cases hfind
  | polled _ n hreach hallows =>
    rw [find?_polled hallows, HttpReply.reported?] at hfind
    obtain ⟨t, ht, hresult⟩ | ⟨hnone, -⟩ :=
      awaited_outcome job (nth replies (n + 2)).status (n + 1)
    · obtain rfl := Option.some.inj (ht.symm.trans hfind)
      rw [hresult, awaited, if_neg (by simp [hs])]
    · rw [hnone] at hfind
      cases hfind

private theorem Course.of_nameless (h : Course c r options replies job requests statuses result)
    (hreach : c.Reachable) (hid : (nth replies 0).Carries createdDecoder "") :
    requests.length = 2 ∧ ∃ m, result = .error (.render m) := by
  cases h with
  | unreachable _ hunreach => exact absurd hreach hunreach
  | refused _ _ hrefused => exact absurd hid (hrefused "")
  | unaccepted _ m => exact ⟨length_plan 0, m, rfl⟩
  | nameless => exact ⟨length_plan 0, _, rfl⟩
  | polled _ n _ hallows =>
    have hjob : job = "" := (hallows 0 (by omega)).unique hid
    exact absurd hjob (hallows 1 (by omega)).2

/-- Whatever the service answers, a render keeps to the protocol. -/
theorem renderAndWait_keeps_protocol (c : ServiceClient) (r : RenderRequest)
    (options : PollOptions) (replies : List HttpReply) :
    ∃ job, Protocol c r options replies job (c.renderAndWait r options replies) := by
  obtain ⟨job, hcourse⟩ := course_renderAndWait c r options replies
  have hlength : ((c.renderAndWait r options replies).requests.map some).length =
      (c.renderAndWait r options replies).requests.length := List.length_map some
  refine ⟨job, ?_⟩
  constructor
  · exact hcourse.planned
  · intro q hq
    refine hcourse.carries_job ?_
    rw [List.getElem?_map, hq, Option.map_some]
  · intro i
    rw [← hcourse.sent_iff, hlength]
  · intro k s
    rw [hcourse.polled_iff, hlength]
  · exact hcourse.ok_iff
  · intro s
    exact hcourse.failed
  · rw [← hlength]
    exact hcourse.of_nameless

/-- The reply that accepts a render may say already that the job has failed. It is polled all the
same, and what counts is what comes then. -/
theorem polls_after_final_acknowledgement :
    let replies : List HttpReply := [.answer 200 "\x7b\"id\":\"job-1\"\x7d",
      .answer 200 "\x7b\"status\":\"failed\",\"error_message\":\"boom\"\x7d",
      .answer 200 "\x7b\"status\":\"completed\"\x7d"]
    let run := renderAndWait ⟨"http://localhost", none⟩ (.new "card" .empty) ⟨1500, none⟩ replies
    (nth replies 1).reported? = some (.failed "boom") ∧ run.requests.length = 3 ∧
      run.result.toOption = some (.new .completed 0) := by
  decide +kernel

end ServiceClient

end MotionTemplate
