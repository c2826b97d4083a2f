import Mathlib.Data.List.Flatten
import Mathlib.Data.List.TakeWhile
import MotionTemplate.Render.Polling

/-! The course of polling. Without a limit it takes the answers up to the first one that decides,
passes on every status before it asks again, and ends with that answer. A limit cuts this short. -/
namespace MotionTemplate

namespace PollAnswer

/-- The status in an answer. -/
def status? (a : PollAnswer) : Option RenderStatus := a.result.toOption

/-- The answer says that the job is over, or it is an error. -/
def decisive (a : PollAnswer) : Bool :=
  match a.result with
  | .ok status => status.isTerminal
  | .error _ => true

/-- What one question and its answer are: a status is passed on, an error is not. -/
def turn (a : PollAnswer) : List PollStep := .ask :: a.status?.toList.map .tell

/-- Polling ends with the answer if so many polls were made with it. -/
def ends (options : PollOptions) (polls : Nat) (a : PollAnswer) : Bool :=
  a.decisive || PollRun.exhausted options polls

/-- What polling comes to that ends with the answer. -/
def outcome (polls : Nat) (a : PollAnswer) : Except JobError (Option RenderStatus) :=
  if a.decisive then a.result.map some else .error (.timedOut polls)

private theorem count_ask_turn (a : PollAnswer) : a.turn.count .ask = 1 := by
  rw [turn]
  cases a.status? <;> rfl

private theorem told_turn (a : PollAnswer) :
    a.turn.filterMap PollStep.told? = [a].filterMap (·.status?) := by
  rw [turn, List.filterMap_cons, List.filterMap_cons]
  cases a.status? <;> rfl

/-- What is reported about an answer. -/
private def reports (client job : String) (a : PollAnswer) : List Event :=
  a.events ++ a.status?.toList.map (PollRun.polledEvent client job)

/-- What is reported about an answer with which polling ends. -/
private def lastReports (client job : String) (a : PollAnswer) : List Event :=
  a.reports client job ++ (a.status?.toList.filter (·.isTerminal)).map (PollRun.endEvent job)

end PollAnswer

namespace PollRun

open PollAnswer

/-- After so many polls none of the answers ends polling. -/
def GoesOn (options : PollOptions) (polls : Nat) (answers : List PollAnswer) : Prop :=
  ∀ (i : Nat) (a : PollAnswer), answers[i]? = some a → a.ends options (polls + i + 1) = false

variable {client job : String} {options : PollOptions} {polls : Nat} {a : PollAnswer}
  {before rest answers : List PollAnswer}

/-! One step of the loop. -/

private theorem follow_cons_of_not_ends (h : a.ends options (polls + 1) = false) :
    follow client job options polls (a :: rest) =
      (follow client job options (polls + 1) rest).after (a.turn ++ [.wait options.intervalMs])
        (a.reports client job) := by
  obtain ⟨hd, hx⟩ := Bool.or_eq_false_iff.1 h
  obtain ⟨events, result⟩ := a
  cases result with
  | error e => exact nomatch hd
  | ok status =>
    have hterminal : status.isTerminal = false := hd
    simp [follow, hterminal, hx, turn, reports, status?, Except.toOption]

private theorem follow_cons_of_ends (h : a.ends options (polls + 1) = true) :
    follow client job options polls (a :: rest) =
      ⟨a.turn, a.lastReports client job, some (a.outcome (polls + 1))⟩ := by
  obtain ⟨events, result⟩ := a
  cases result with
  | error e =>
    simp [follow, turn, lastReports, reports, outcome, decisive, status?, Except.toOption,
      Except.map]
  | ok status =>
    cases hs : status.isTerminal with
    | true =>
      simp [follow, hs, turn, lastReports, reports, outcome, decisive, status?, Except.toOption,
        Except.map]
    | false =>
      have hx : exhausted options (polls + 1) = true := by
        simpa [ends, decisive, hs] using h
      simp [follow, hs, hx, turn, lastReports, reports, outcome, decisive, status?,
        Except.toOption]

/-! Its runs. -/

private theorem after_after (r : PollRun) (steps steps' : List PollStep)
    (events events' : List Event) :
    (r.after steps events).after steps' events' =
      r.after (steps' ++ steps) (events' ++ events) := by
  simp [after]

variable (client job rest) in
/-- Polling goes on through answers none of which ends it. -/
private theorem follow_append (h : GoesOn options polls before) :
    follow client job options polls (before ++ rest) =
      (follow client job options (polls + before.length) rest).after
        (before.flatMap fun b => b.turn ++ [.wait options.intervalMs])
        (before.flatMap (·.reports client job)) := by
  induction before generalizing polls with
  | nil => rfl
  | cons b before ih =>
    have hb : b.ends options (polls + 1) = false := h 0 b rfl
    have hbefore : GoesOn options (polls + 1) before := by
      intro i c hi
      rw [Nat.add_right_comm polls 1 i]
      exact h (i + 1) c hi
    rw [List.cons_append, follow_cons_of_not_ends hb, ih hbefore, after_after, List.flatMap_cons,
      List.flatMap_cons, List.length_cons, Nat.add_right_comm polls 1, Nat.add_assoc polls]

/-- Polling as a whole, when it ends. -/
private theorem follow_of_ends
    (h : GoesOn options polls before)
    (ha : a.ends options (polls + before.length + 1) = true) :
    follow client job options polls (before ++ a :: rest) =
      ⟨(before.flatMap fun b => b.turn ++ [.wait options.intervalMs]) ++ a.turn,
        before.flatMap (·.reports client job) ++ a.lastReports client job,
        some (a.outcome (polls + before.length + 1))⟩ := by
  rw [follow_append client job _ h, follow_cons_of_ends ha]
  rfl

variable (client job) in
/-- Polling as a whole, when it goes on. -/
private theorem follow_of_goesOn (h : GoesOn options polls answers) :
    (follow client job options polls answers).steps =
        answers.flatMap (fun b => b.turn ++ [.wait options.intervalMs]) ∧
      (follow client job options polls answers).result = none := by
  have hwhole := follow_append client job [] h
  rw [List.append_nil] at hwhole
  rw [hwhole]
  exact ⟨List.append_nil _, rfl⟩

/-! What the steps add up to. -/

private theorem count_ask_turns (ms : Nat) (answers : List PollAnswer) :
    (answers.flatMap fun b => b.turn ++ [.wait ms]).count .ask = answers.length := by
  induction answers with
  | nil => rfl
  | cons b answers ih =>
    rw [List.flatMap_cons, List.count_append, List.count_append, count_ask_turn, ih,
      List.length_cons, Nat.add_comm]
    rfl

private theorem told_turns (ms : Nat) (answers : List PollAnswer) :
    (answers.flatMap fun b => b.turn ++ [.wait ms]).filterMap PollStep.told? =
      answers.filterMap (·.status?) := by
  induction answers with
  | nil => rfl
  | cons b answers ih =>
    have hwait : [PollStep.wait ms].filterMap PollStep.told? = [] := rfl
    rw [List.flatMap_cons, List.filterMap_append, List.filterMap_append, told_turn, hwait, ih,
      List.append_nil, ← List.filterMap_append, List.singleton_append]

variable (client job rest) in
/-- When polling ends with an answer, it has asked once for each answer up to it and passed on the
statuses among them. -/
theorem follow_ended (h : GoesOn options polls before)
    (ha : a.ends options (polls + before.length + 1) = true) :
    let run := follow client job options polls (before ++ a :: rest)
    run.requests = before.length + 1 ∧ run.statuses = (before ++ [a]).filterMap (·.status?) ∧
      run.result = some (a.outcome (polls + before.length + 1)) := by
  intro run
  have hrun : run = _ := follow_of_ends h ha
  refine ⟨?_, ?_, ?_⟩
  · rw [hrun, requests, List.count_append, count_ask_turns, count_ask_turn]
  · rw [hrun, statuses, List.filterMap_append, told_turns, told_turn, List.filterMap_append]
  · rw [hrun]

variable (client job) in
/-- As long as polling goes on, it has asked once for each answer. -/
private theorem follow_goesOn (h : GoesOn options polls answers) :
    let run := follow client job options polls answers
    run.requests = answers.length ∧ run.statuses = answers.filterMap (·.status?) ∧
      run.result = none := by
  intro run
  obtain ⟨hsteps, hresult⟩ := follow_of_goesOn client job h
  refine ⟨?_, ?_, hresult⟩
  · rw [requests, hsteps, count_ask_turns]
  · rw [statuses, hsteps, told_turns]

theorem ofAnswers_some (hjob : job ≠ "") :
    ofAnswers client (some job) options answers = follow client job options 0 answers := by
  simp [ofAnswers, Option.filter, hjob]

private theorem goesOn_unlimited {ms : Nat} (h : ∀ b ∈ answers, b.decisive = false) :
    GoesOn ⟨ms, none⟩ polls answers := by
  intro i b hi
  exact Bool.or_eq_false_iff.2 ⟨h b (List.mem_of_getElem? hi), rfl⟩

private theorem ends_of_decisive (h : a.decisive = true) : a.ends options polls = true := by
  rw [ends, h, Bool.true_or]

private theorem outcome_of_decisive (h : a.decisive = true) :
    a.outcome polls = a.result.map some := by
  rw [outcome, if_pos h]

variable (rest) in
/-- Where the answers stand up to the first one that decides. -/
private theorem first_decisive (h : ∀ b ∈ before, b.decisive = false) (ha : a.decisive = true) :
    (before ++ a :: rest).findIdx? (·.decisive) = some before.length ∧
      (before ++ a :: rest).takeWhile (!·.decisive) = before ∧
      (before ++ a :: rest).take (before.length + 1) = before ++ [a] := by
  refine ⟨?_, ?_, ?_⟩
  · simp [List.findIdx?_append, List.findIdx?_eq_none_iff.2 h, List.findIdx?_cons, ha]
  · rw [List.takeWhile_append_of_pos (by simpa using h), List.takeWhile_cons_of_neg (by simp [ha]),
      List.append_nil]
  · rw [List.append_cons]
    exact List.take_left' (by simp)

/-- Polling without a limit. Without an id nothing is done. Otherwise the service is asked as often
as it takes to the first answer that decides, each status up to there is passed on before the next
question, and the result is that answer. While none decides, there is no result. -/
theorem polls_up_to_first_decisive (client : String) (job : Option String) (ms : Nat)
    (answers : List PollAnswer) :
    let run := ofAnswers client job ⟨ms, none⟩ answers
    (job = none ∨ job = some "" → run.steps = [] ∧ run.result = some (.ok none)) ∧
      ∀ id, job = some id → id ≠ "" →
        run.requests = (answers.findIdx? (·.decisive)).elim answers.length (· + 1) ∧
        run.statuses = (answers.take run.requests).filterMap (·.status?) ∧
        run.steps =
          (answers.takeWhile (!·.decisive)).flatMap (fun b => b.turn ++ [.wait ms]) ++
            (answers.find? (·.decisive)).toList.flatMap (·.turn) ∧
        run.result = (answers.find? (·.decisive)).map (·.result.map some) := by
  intro run
  constructor
  · rintro (rfl | rfl) <;> exact ⟨rfl, rfl⟩
  · rintro id rfl hid
    rw [show run = follow client id ⟨ms, none⟩ 0 answers from ofAnswers_some hid]
    cases hfind : answers.find? (·.decisive) with
    | none =>
      have hnone : ∀ b ∈ answers, b.decisive = false := by
        simpa using hfind
      have hgoes : GoesOn ⟨ms, none⟩ 0 answers := goesOn_unlimited hnone
      obtain ⟨hrequests, hstatuses, hresult⟩ := follow_goesOn client id hgoes
      have hwhile : answers.takeWhile (!·.decisive) = answers := by
        rw [List.takeWhile_eq_self_iff]
        simpa using hnone
      refine ⟨?_, ?_, ?_, hresult⟩
      · rw [hrequests, List.findIdx?_eq_none_iff.2 hnone, Option.elim_none]
      · rw [hrequests, List.take_length, hstatuses]
      · rw [hwhile, (follow_of_goesOn client id hgoes).1]
        exact (List.append_nil _).symm
    | some a =>
      obtain ⟨ha, before, rest, rfl, hbefore⟩ := List.find?_eq_some_iff_append.1 hfind
      have hnone : ∀ b ∈ before, b.decisive = false := by
        simpa using hbefore
      have hgoes : GoesOn ⟨ms, none⟩ 0 before := goesOn_unlimited hnone
      have hends : a.ends ⟨ms, none⟩ (0 + before.length + 1) = true := ends_of_decisive ha
      obtain ⟨hrequests, hstatuses, hresult⟩ :=
        follow_ended client id rest hgoes hends
      obtain ⟨hindex, hwhile, htake⟩ := first_decisive rest hnone ha
      refine ⟨?_, ?_, ?_, ?_⟩
      · rw [hrequests, hindex, Option.elim_some]
      · rw [hrequests, hstatuses, htake]
      · rw [hwhile, follow_of_ends hgoes hends, Option.toList_some, List.flatMap_singleton]
      · rw [hresult, outcome_of_decisive ha, Option.map_some]

example :
    let run := ofAnswers "scripted" (some "job-1") ⟨1500, none⟩
      [⟨[], .ok (.new .pending 0)⟩, ⟨[], .ok (.completed "out.mp4")⟩,
        ⟨[], .ok (.new .processing 99)⟩]
    run.requests = 2 ∧ run.statuses.map (·.progress) = [0, 100] ∧ run.waitedMs = 1500 := by
  decide

/-! Polling with a limit. The test of the limit comes after the poll, so the budget is at least one
poll. -/

variable {n ms : Nat}

private theorem goesOn_within (h : ∀ b ∈ before, b.decisive = false)
    (hlength : before.length < max n 1) : GoesOn ⟨ms, some n⟩ 0 before := by
  intro i b hi
  have hlt : i < before.length := (List.getElem?_eq_some_iff.1 hi).1
  have hopen : exhausted ⟨ms, some n⟩ (0 + i + 1) = false := by
    simp only [exhausted, Option.any_some, decide_eq_false_iff_not]
    omega
  exact Bool.or_eq_false_iff.2 ⟨h b (List.mem_of_getElem? hi), hopen⟩

/-- The first answer that decides, where there is one among so many answers. -/
private theorem exists_first_decisive {k : Nat}
    (h : ∃ b ∈ answers.take k, b.decisive = true) :
    ∃ before a rest, answers = before ++ a :: rest ∧ before.length < k ∧
      a ∈ answers.take k ∧ a.decisive = true ∧ ∀ b ∈ before, b.decisive = false := by
  obtain ⟨a, hfind⟩ := Option.isSome_iff_exists.1 (List.find?_isSome.2 h)
  obtain ⟨ha, before, rest, htake, hbefore⟩ := List.find?_eq_some_iff_append.1 hfind
  refine ⟨before, a, rest ++ answers.drop k, ?_, ?_, List.mem_of_find?_eq_some hfind, ha, ?_⟩
  · rw [← List.cons_append, ← List.append_assoc, ← htake, List.take_append_drop]
  · have hsum := congrArg List.length htake
    simp only [List.length_take, List.length_append, List.length_cons] at hsum
    omega
  · simpa using hbefore

variable (client job ms) in
/-- An answer within the budget that decides ends polling as it does without a limit. -/
private theorem follow_within_budget
    (h : ∃ b ∈ answers.take (max n 1), b.decisive = true) :
    let run := follow client job ⟨ms, some n⟩ 0 answers
    run = follow client job ⟨ms, none⟩ 0 answers ∧ 0 < run.requests ∧ run.requests ≤ max n 1 ∧
      ∃ b ∈ answers.take (max n 1), run.result = some (b.result.map some) := by
  intro run
  obtain ⟨before, a, rest, rfl, hlength, hmem, ha, hnone⟩ := exists_first_decisive h
  have hgoes : GoesOn ⟨ms, some n⟩ 0 before := goesOn_within hnone hlength
  have hlimited : a.ends ⟨ms, some n⟩ (0 + before.length + 1) = true := ends_of_decisive ha
  have hfree : a.ends ⟨ms, none⟩ (0 + before.length + 1) = true := ends_of_decisive ha
  obtain ⟨hrequests, -, hresult⟩ :=
    follow_ended client job rest hgoes hlimited
  rw [outcome_of_decisive ha] at hresult
  refine ⟨?_, ?_, ?_, a, hmem, hresult⟩
  · exact (follow_of_ends hgoes hlimited).trans
      (follow_of_ends (goesOn_unlimited hnone) hfree).symm
  · rw [hrequests]
    exact Nat.succ_pos _
  · rw [hrequests]
    exact hlength

variable (client job ms) in
/-- Without such an answer polling is given up when the budget is spent. -/
private theorem follow_beyond_budget (hlength : max n 1 ≤ answers.length)
    (h : ∀ b ∈ answers.take (max n 1), b.decisive = false) :
    let run := follow client job ⟨ms, some n⟩ 0 answers
    run.requests = max n 1 ∧ run.result = some (.error (.timedOut (max n 1))) := by
  intro run
  obtain ⟨k, hk⟩ : ∃ k, max n 1 = k + 1 := ⟨n - 1, by omega⟩
  rw [hk] at hlength h ⊢
  have hsplit : answers = answers.take k ++ answers[k] :: answers.drop (k + 1) := by
    rw [← List.drop_eq_getElem_cons, List.take_append_drop]
  have hsize : (answers.take k).length = k := List.length_take_of_le (by omega)
  have hbefore : ∀ b ∈ answers.take k, b.decisive = false := by
    intro b hb
    exact h b (List.take_subset_take_left answers (Nat.le_succ k) hb)
  have hlast : answers[k].decisive = false :=
    h _ (List.mem_take_iff_getElem.2 ⟨k, by omega, rfl⟩)
  have hspent : exhausted ⟨ms, some n⟩ (0 + (answers.take k).length + 1) = true := by
    simp only [exhausted, Option.any_some, decide_eq_true_iff]
    omega
  have hends : answers[k].ends ⟨ms, some n⟩ (0 + (answers.take k).length + 1) = true := by
    rw [ends, hspent, Bool.or_true]
  have hrun : run = follow client job ⟨ms, some n⟩ 0 _ := congrArg _ hsplit
  obtain ⟨hrequests, -, hresult⟩ := follow_ended client job (answers.drop (k + 1))
    (goesOn_within hbefore (by omega)) hends
  rw [hrun]
  constructor
  · rw [hrequests, hsize]
  · rw [hresult, outcome, hlast, Nat.zero_add, hsize]
    rfl

/-- A limit is a budget of polls, and a limit of 0 is one of a single poll. When an answer within
the budget decides, polling goes as it does without a limit. When none does, it is given up with
the number of polls that were made, and unless an answer is such an error itself, only then. -/
theorem limit_acts_from_one (client job : String) (n ms : Nat) (answers : List PollAnswer)
    (hjob : job ≠ "") (hlength : max n 1 ≤ answers.length) :
    let run := ofAnswers client (some job) ⟨ms, some n⟩ answers
    let budget := answers.take (max n 1)
    run.requests ≤ max n 1 ∧ (run.requests ≤ n ↔ n ≠ 0) ∧
      ((∃ a ∈ budget, a.decisive = true) →
        run = ofAnswers client (some job) ⟨ms, none⟩ answers) ∧
      ((∀ a ∈ budget, a.decisive = false) →
        run.requests = max n 1 ∧ run.result = some (.error (.timedOut (max n 1)))) ∧
      ((∀ a ∈ budget, ∀ polls, a.result ≠ .error (.timedOut polls)) →
        ((∃ polls, run.result = some (.error (.timedOut polls))) ↔
          ∀ a ∈ budget, a.decisive = false)) := by
  intro run budget
  have hrun : run = follow client job ⟨ms, some n⟩ 0 answers := ofAnswers_some hjob
  by_cases hdecisive : ∃ a ∈ budget, a.decisive = true
  · obtain ⟨hfree, hpos, hle, a, ha, hresult⟩ :=
      follow_within_budget client job ms hdecisive
    have hsome : ¬ ∀ a ∈ budget, a.decisive = false := by
      simpa using hdecisive
    rw [hrun]
    refine ⟨hle, by omega, fun _ => ?_, fun hall => absurd hall hsome, fun hown => ?_⟩
    · rw [hfree, ofAnswers_some hjob]
    · rw [iff_false_right hsome, hresult]
      rintro ⟨polls, hpolls⟩
      refine hown a ha polls ?_
      cases h : a.result with
      | ok status => rw [h] at hpolls; cases hpolls
      | error e => rw [h] at hpolls; cases hpolls; rfl
  · have hall : ∀ a ∈ budget, a.decisive = false := by
      simpa using hdecisive
    obtain ⟨hrequests, hresult⟩ :=
      follow_beyond_budget client job ms hlength hall
    rw [hrun]
    exact ⟨hrequests.le, by omega, fun hsome => absurd hsome hdecisive,
      fun _ => ⟨hrequests, hresult⟩, fun _ => iff_of_true ⟨_, hresult⟩ hall⟩

/-- Two polls are made under a limit of 2, and then it is given up. -/
theorem limit_two_polls_twice :
    let answers : List PollAnswer :=
      [⟨[], .ok (.new .processing 10)⟩, ⟨[], .ok (.new .processing 20)⟩,
        ⟨[], .ok (.completed "out.mp4")⟩]
    let run := ofAnswers "scripted" (some "job-1") ⟨1500, some 2⟩ answers
    "job-1" ≠ "" ∧ max 2 1 ≤ answers.length ∧
      run.requests = 2 ∧ run.result = some (.error (.timedOut 2)) := by
  intro answers run
  have hjob : "job-1" ≠ "" := by decide
  have hlength : max 2 1 ≤ answers.length := by decide
  obtain ⟨-, -, -, hspent, -⟩ := limit_acts_from_one "scripted" "job-1" 2 1500 answers hjob hlength
  obtain ⟨hrequests, hresult⟩ := hspent (by decide)
  exact ⟨hjob, hlength, hrequests, hresult⟩

/-- A limit of 0 does not keep a job from being polled, and what is reported exceeds it. -/
theorem limit_zero_polls_once :
    let run := ofAnswers "scripted" (some "job-1") ⟨1500, some 0⟩ [⟨[], .ok (.new .processing 10)⟩]
    ¬ run.requests ≤ 0 ∧ run.result = some (.error (.timedOut 1)) := by
  decide

end PollRun

end MotionTemplate
