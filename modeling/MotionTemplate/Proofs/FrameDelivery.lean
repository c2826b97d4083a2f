import MotionTemplate.Proofs.FrameHistory

/-! What a frame loop delivers. Whatever subscribers do while they are called, a tick comes to those
that were registered when it began, one after another, and calls each that is still registered and
not running already. -/
namespace MotionTemplate

open LoopEntry

/-- What a step of a tick comes to is right for those that are registered and running then. -/
def TurnStep.Fits (tick : FrameTick) (registered running : List Nat) : TurnStep → Prop
  | .call id told => told = tick ∧ id ∈ registered ∧ id ∉ running
  | .gone id => id ∉ registered
  | .busy id => id ∈ registered ∧ id ∈ running
  | .finished _ => True
  | .idle => False

/-- A tick goes on: it takes a step, or a subscriber that it called is back. -/
def LoopEntry.GoesOn (tick : FrameTick) (e : LoopEntry) : Prop :=
  e = .returned ∨ ∃ step, e = .turned tick step

/-- What holds of everything that happened on a frame loop. -/
structure Delivers (log : List LoopEntry) : Prop where
  /-- Ticks are numbered in the order in which they begin. -/
  indices : (ticks log).map (·.index) = List.range (ticks log).length
  /-- Every subscription has an id of its own. -/
  ids : subscriptions log = List.range (subscriptions log).length
  /-- A step belongs to a tick that has begun. -/
  step : ∀ before tick step after, log = before ++ .turned tick step :: after →
    tick ∈ ticks before ∧ step.Fits tick (registered before) (running before)
  /-- A tick comes to those that were registered when it began, in the order in which they
  subscribed, and to nobody twice. -/
  subjects : ∀ before tick after, log = before ++ .began tick :: after →
    (registered before).Pairwise (· < ·) ∧
      (stepsOf tick.index after).filterMap (·.subject?) <+: registered before
  /-- It takes a step for each of them and one to end. -/
  bounded : ∀ before tick after, log = before ++ .began tick :: after →
    (stepsOf tick.index after).length ≤ (registered before).length + 1
  /-- It is over when it has come to all of them, and tells how many it called. -/
  finished : ∀ before tick after n, log = before ++ .began tick :: after →
    .finished n ∈ stepsOf tick.index after → ∃ steps,
      stepsOf tick.index after = steps ++ [.finished n] ∧
        steps.filterMap (·.subject?) = registered before ∧
        n = (steps.filterMap (·.called?)).length
  /-- Who subscribes after it has begun has no turn in it. -/
  late : ∀ before tick after id, log = before ++ .began tick :: after → .subscribed id ∈ after →
    id ∉ (stepsOf tick.index after).filterMap (·.subject?)
  /-- Who was cancelled is called no more. -/
  cancelled : ∀ before tick id told after, log = before ++ .turned tick (.call id told) :: after →
    .cancelled id ∉ before

namespace FrameLoop

variable {log before after : List LoopEntry} {l l' : FrameLoop} {e : LoopEntry} {turn : Turn}
  {outer : List Turn} {id : Nat} {tick : FrameTick} {ids : List Nat} {steps : List TurnStep}

/-- A tick in progress has come through its steps to those of the given ids that are not pending. -/
private structure Underway (ids : List Nat) (steps : List TurnStep) (turn : Turn) : Prop where
  subjects : steps.filterMap (·.subject?) ++ turn.pending = ids
  length : steps.length + turn.pending.length = ids.length
  invoked : turn.invoked = (steps.filterMap (·.called?)).length
  unfinished : ∀ n, .finished n ∉ steps

/-- A tick is over and came to all of the given ids. -/
private def Over (ids : List Nat) (steps : List TurnStep) : Prop :=
  ∃ init, steps = init ++ [.finished (init.filterMap (·.called?)).length] ∧
    init.filterMap (·.subject?) = ids ∧ init.length = ids.length ∧ ∀ n, .finished n ∉ init

/-- How far a tick has come, with the ticks in progress. -/
private def Progress (ids : List Nat) (tick : FrameTick) (steps : List TurnStep)
    (turns : List Turn) : Prop :=
  (∃ turn ∈ turns, turn.tick = tick ∧ Underway ids steps turn) ∨
    ((∀ turn ∈ turns, turn.tick.index ≠ tick.index) ∧ Over ids steps)

private theorem progress_cons_of_ne (hne : turn.tick.index ≠ tick.index) :
    Progress ids tick steps (turn :: outer) ↔ Progress ids tick steps outer := by
  have htick : turn.tick ≠ tick := fun h => hne (congrArg _ h)
  simp [Progress, hne, htick]

private theorem progress_cons_of_eq (heq : turn.tick.index = tick.index)
    (houter : ∀ t ∈ outer, t.tick.index < turn.tick.index) :
    Progress ids tick steps (turn :: outer) ↔ turn.tick = tick ∧ Underway ids steps turn := by
  constructor
  · rintro (⟨t, ht, htick, h⟩ | ⟨hne, -⟩)
    · rcases List.mem_cons.1 ht with rfl | ht
      · exact ⟨htick, h⟩
      · exact absurd (houter t ht) (by rw [htick, heq]; exact Nat.lt_irrefl _)
    · exact absurd heq (hne turn List.mem_cons_self)
  · exact fun h => .inl ⟨turn, List.mem_cons_self, h⟩

/-- A subscriber that has had its turn is pending no longer. -/
private theorem Underway.pass {rest : List Nat} {step : TurnStep} {next : Turn}
    (h : Underway ids steps turn) (hp : turn.pending = id :: rest) (hid : step.subject? = some id)
    (hpending : next.pending = rest)
    (hinvoked : next.invoked = turn.invoked + step.called?.toList.length) :
    Underway ids (steps ++ [step]) next where
  subjects := by
    rw [← h.subjects, hp, hpending]
    simp [hid]
  length := by
    have hlength := h.length
    rw [hp, List.length_cons] at hlength
    rw [List.length_append, List.length_singleton, hpending]
    omega
  invoked := by
    rw [hinvoked, h.invoked]
    cases hcalled : step.called? <;> simp [hcalled]
  unfinished n hn := by
    rcases List.mem_append.1 hn with hn | hn
    · exact h.unfinished n hn
    · rw [← List.mem_singleton.1 hn] at hid
      exact nomatch hid

/-- A step of the innermost tick brings it further, or ends it. -/
private theorem Progress.step (h : Progress ids turn.tick steps l.turns)
    (ht : l.turns = turn :: outer) (houter : ∀ t ∈ outer, t.tick.index < turn.tick.index) :
    Progress ids turn.tick (steps ++ [l.step.2]) l.step.1.turns := by
  rw [ht, progress_cons_of_eq rfl houter] at h
  obtain ⟨-, h⟩ := h
  obtain ⟨hp, hs⟩ | ⟨id, rest, hp, ⟨-, hs⟩ | ⟨-, -, hs⟩ | ⟨-, -, hs⟩⟩ := step_cases ht <;> rw [hs]
  · have hsubjects := h.subjects
    have hlength := h.length
    rw [hp] at hsubjects hlength
    rw [List.append_nil] at hsubjects
    exact .inr ⟨fun t ht => Nat.ne_of_lt (houter t ht), steps, by rw [h.invoked], hsubjects,
      hlength, h.unfinished⟩
  · exact .inl ⟨_, List.mem_cons_self, rfl, h.pass hp rfl rfl rfl⟩
  · exact .inl ⟨_, List.mem_cons_self, rfl, h.pass hp rfl rfl rfl⟩
  · exact .inl ⟨_, List.mem_cons_self, rfl, h.pass hp rfl rfl rfl⟩

/-- A step of another tick leaves a tick where it is. -/
private theorem Progress.step_of_ne (h : Progress ids tick steps l.turns)
    (ht : l.turns = turn :: outer) (hne : turn.tick.index ≠ tick.index) :
    Progress ids tick steps l.step.1.turns := by
  rw [ht, progress_cons_of_ne hne] at h
  obtain ⟨-, hs⟩ | ⟨id, rest, -, ⟨-, hs⟩ | ⟨-, -, hs⟩ | ⟨-, -, hs⟩⟩ := step_cases ht <;> rw [hs]
  · exact h
  all_goals
    refine (progress_cons_of_ne ?_).2 h
    exact hne

private theorem Progress.returned (h : Progress ids tick steps l.turns)
    (ht : l.turns = turn :: outer) (houter : ∀ t ∈ outer, t.tick.index < turn.tick.index) :
    Progress ids tick steps l.returned.turns := by
  rw [ht] at h
  rw [returned_eq ht]
  by_cases heq : turn.tick.index = tick.index
  · obtain ⟨htick, h⟩ := (progress_cons_of_eq heq houter).1 h
    exact .inl ⟨_, List.mem_cons_self, htick, h.subjects, h.length, h.invoked, h.unfinished⟩
  · refine (progress_cons_of_ne ?_).2 ((progress_cons_of_ne heq).1 h)
    exact heq

private theorem Progress.next (h : Progress ids tick steps l.turns) (htold : Told log l)
    (htick : tick ∈ LoopEntry.ticks log) (he : l.Happens e l') :
    Progress ids tick (steps ++ (e.stepOf? tick.index).toList) l'.turns := by
  have houter {turn : Turn} {outer : List Turn} (ht : l.turns = turn :: outer) (t : Turn)
      (hm : t ∈ outer) : t.tick.index < turn.tick.index := by
    have hnested := htold.nested
    rw [FrameLoop.ticks, ht, List.map_cons, List.pairwise_cons] at hnested
    exact hnested.1 _ (List.mem_map_of_mem hm)
  have hlt : tick.index < l.frameIndex := by
    rw [← List.mem_range, ← htold.indices]
    exact List.mem_map_of_mem htick
  cases he with
  | subscribe | cancel =>
    simp only [stepOf?, Option.toList_none, List.append_nil]
    exact h
  | begin now =>
    simp only [stepOf?, Option.toList_none, List.append_nil]
    exact (progress_cons_of_ne (Nat.ne_of_gt hlt)).2 h
  | returned ht hr =>
    simp only [stepOf?, Option.toList_none, List.append_nil]
    exact h.returned ht (houter ht)
  | @step turn outer ht hr =>
    by_cases heq : turn.tick.index = tick.index
    · have hsame : turn.tick = tick := ((progress_cons_of_eq heq (houter ht)).1 (ht ▸ h)).1
      subst hsame
      simp only [stepOf?, if_pos, Option.toList_some]
      exact h.step ht (houter ht)
    · simp only [stepOf?, if_neg heq, Option.toList_none, List.append_nil]
      exact h.step_of_ne ht heq

/-- From its beginning on, a tick is on its way through those that were registered then. -/
private theorem History.progress (h : History (before ++ .began tick :: after) l) :
    Progress (registered before) tick (stepsOf tick.index after) l.turns := by
  induction after using List.reverseRecOn generalizing l with
  | nil =>
    obtain ⟨l₀, h₀, he⟩ := h.last
    cases he with
    | begin now =>
      have hids := h₀.told.registered
      have hstart : Underway (registered before) []
          ⟨⟨l₀.frameIndex, now⟩, l₀.subscribers, none, 0⟩ :=
        ⟨hids.symm, by rw [hids]; exact Nat.zero_add _, rfl, nofun⟩
      exact .inl ⟨_, List.mem_cons_self, rfl, hstart⟩
  | append_singleton after e ih =>
    rw [← List.cons_append, ← List.append_assoc] at h
    obtain ⟨l₀, h₀, he⟩ := h.last
    rw [stepsOf_concat]
    exact (ih h₀).next h₀.told (by simp [LoopEntry.ticks, tick?]) he

private theorem Progress.subjects (h : Progress ids tick steps l.turns) :
    steps.filterMap (·.subject?) <+: ids := by
  obtain ⟨turn, -, -, h⟩ | ⟨-, init, rfl, rfl, -, -⟩ := h
  · exact ⟨turn.pending, h.subjects⟩
  · simp [TurnStep.subject?]

private theorem Progress.length_le (h : Progress ids tick steps l.turns) :
    steps.length ≤ ids.length + 1 := by
  obtain ⟨turn, -, -, h⟩ | ⟨-, init, rfl, -, hlength, -⟩ := h
  · have hlength := h.length
    omega
  · rw [List.length_append, hlength]
    exact Nat.le_refl _

private theorem Progress.finished {n : Nat} (h : Progress ids tick steps l.turns)
    (hn : .finished n ∈ steps) : ∃ init, steps = init ++ [.finished n] ∧
      init.filterMap (·.subject?) = ids ∧ n = (init.filterMap (·.called?)).length := by
  obtain ⟨turn, -, -, h⟩ | ⟨-, init, rfl, hids, -, hinit⟩ := h
  · exact absurd hn (h.unfinished n)
  · obtain rfl : n = (init.filterMap (·.called?)).length := by simpa [hinit] using hn
    exact ⟨init, rfl, hids, rfl⟩

private theorem fits_of_step (ht : l.turns = turn :: outer) :
    l.step.2.Fits turn.tick l.subscribers l.running := by
  obtain ⟨-, hs⟩ | ⟨id, rest, -, ⟨hsub, hs⟩ | ⟨hsub, hrun, hs⟩ | ⟨hsub, hrun, hs⟩⟩ := step_cases ht
    <;> rw [hs]
  · trivial
  · exact hsub
  · exact ⟨hsub, hrun⟩
  · exact ⟨rfl, hsub, hrun⟩

/-- A step belongs to a tick that has begun, and is right for those of its moment. -/
private theorem History.step_fits {step : TurnStep}
    (h : History (log ++ [.turned tick step]) l) :
    tick ∈ LoopEntry.ticks log ∧ step.Fits tick (registered log) (LoopEntry.running log) := by
  obtain ⟨l₀, h₀, he⟩ := h.last
  rw [h₀.told.registered, h₀.told.running]
  cases he with
  | @step turn outer ht _ =>
    refine ⟨h₀.told.begun ?_, fits_of_step ht⟩
    rw [FrameLoop.ticks, ht]
    exact List.mem_cons_self

private theorem History.nodup (h : History log l) : (subscriptions log).Nodup :=
  h.told.ids ▸ List.nodup_range

/-- Who was cancelled is never registered again, since its id is not given again. -/
private theorem History.cancelled (h : History log l) (hid : .cancelled id ∈ log) :
    id ∈ subscriptions log ∧ id ∉ registered log := by
  induction h with
  | start => exact nomatch hid
  | @next log l l' e h he ih =>
    have hnodup := (h.next he).nodup
    rw [subscriptions_concat] at hnodup ⊢
    rw [registered_concat]
    cases e with
    | subscribed new =>
      obtain ⟨hsub, hreg⟩ := ih (by simpa using hid)
      have hne : id ≠ new := (List.nodup_append.1 hnodup).2.2 id hsub new List.mem_cons_self
      exact ⟨List.mem_append_left _ hsub, by simp [register, hreg, hne]⟩
    | cancelled other =>
      refine ⟨List.mem_append_left _ ?_, fun hreg => ?_⟩
      · rcases List.mem_append.1 hid with hid | hid
        · exact (ih hid).1
        · obtain rfl : id = other := by simpa using hid
          cases he with
          | cancel hlt => rwa [h.told.ids, List.mem_range]
      · have hreg : id ∈ (registered log).erase other := hreg
        have hreg' := List.mem_of_mem_erase hreg
        rcases List.mem_append.1 hid with hid | hid
        · exact (ih hid).2 hreg'
        · obtain rfl : id = other := by simpa using hid
          exact (h.nodup.sublist (registered_sublist log)).not_mem_erase hreg
    | began | turned | returned =>
      obtain ⟨hsub, hreg⟩ := ih (by simpa using hid)
      exact ⟨List.mem_append_left _ hsub, hreg⟩

private theorem History.delivers (h : History log l) : Delivers log where
  indices := by
    rw [h.told.indices, ← List.length_map (·.index), h.told.indices, List.length_range]
  ids := by
    rw [h.told.ids, List.length_range]
  step before tick step after hlog := by
    rw [hlog, List.append_cons] at h
    obtain ⟨l', h'⟩ := h.upTo
    exact h'.step_fits
  subjects before tick after hlog := by
    subst hlog
    obtain ⟨l₀, h₀⟩ := h.upTo
    exact ⟨h₀.told.ordered, h.progress.subjects⟩
  bounded before tick after hlog := by
    subst hlog
    exact h.progress.length_le
  finished before tick after n hlog hn := by
    subst hlog
    exact h.progress.finished hn
  late before tick after id hlog hid hturn := by
    subst hlog
    have hbefore : id ∈ subscriptions before :=
      (registered_sublist before).subset (h.progress.subjects.subset hturn)
    have hafter : id ∈ subscriptions (.began tick :: after) :=
      List.mem_filterMap.2 ⟨_, List.mem_cons_of_mem _ hid, rfl⟩
    have hnodup := h.nodup
    rw [subscriptions, List.filterMap_append, List.nodup_append] at hnodup
    exact hnodup.2.2 id hbefore id hafter rfl
  cancelled before tick id told after hlog hid := by
    rw [hlog, List.append_cons] at h
    obtain ⟨l', h'⟩ := h.upTo
    obtain ⟨l₀, h₀⟩ := h'.upTo
    exact (h₀.cancelled hid).2 h'.step_fits.2.2.1

/-- The next subscriber has its turn and, if it is called, comes back. -/
private theorem History.pass {rest : List Nat} (h : History log l) (ht : l.turns = turn :: outer)
    (hr : turn.running = none) (hp : turn.pending = id :: rest) :
    ∃ more l' next, History (log ++ more) l' ∧ l'.turns = next :: outer ∧ next.tick = turn.tick ∧
      next.running = none ∧ next.pending = rest ∧ ∀ e ∈ more, e.GoesOn turn.tick := by
  have hstep := h.next (.step ht hr)
  have hown : (LoopEntry.turned turn.tick l.step.2).GoesOn turn.tick := .inr ⟨_, rfl⟩
  obtain ⟨hnil, -⟩ | ⟨id', rest', hcons, hcase⟩ := step_cases ht
  · rw [hp] at hnil
    contradiction
  obtain ⟨rfl, rfl⟩ := List.cons.inj (hp.symm.trans hcons)
  obtain ⟨-, hs⟩ | ⟨-, -, hs⟩ | ⟨-, -, hs⟩ := hcase <;> rw [hs] at hstep hown
  · exact ⟨_, _, _, hstep, rfl, rfl, hr, rfl, List.forall_mem_singleton.2 hown⟩
  · exact ⟨_, _, _, hstep, rfl, rfl, hr, rfl, List.forall_mem_singleton.2 hown⟩
  · have hback := hstep.next (.returned rfl rfl)
    rw [List.append_assoc] at hback
    refine ⟨_, _, _, hback, rfl, rfl, rfl, rfl, List.forall_mem_append.2 ⟨?_, ?_⟩⟩
    · exact List.forall_mem_singleton.2 hown
    · exact List.forall_mem_singleton.2 (.inl rfl)

/-- A tick gives those that are pending their turns and ends. -/
private theorem History.finish (h : History log l) (ht : l.turns = turn :: outer)
    (hr : turn.running = none) : ∃ more l' n, History (log ++ more) l' ∧ l'.turns = outer ∧
      .turned turn.tick (.finished n) ∈ more ∧ ∀ e ∈ more, e.GoesOn turn.tick := by
  generalize hp : turn.pending = ids
  induction ids generalizing log l turn with
  | nil =>
    obtain ⟨-, hs⟩ | ⟨id, rest, hcons, -⟩ := step_cases ht
    · have hstep := h.next (.step ht hr)
      rw [hs] at hstep
      exact ⟨_, _, _, hstep, rfl, List.mem_singleton_self _,
        List.forall_mem_singleton.2 (.inr ⟨_, rfl⟩)⟩
    · rw [hp] at hcons
      contradiction
  | cons id rest ih =>
    obtain ⟨first, l₁, next, h₁, hturns, htick, hrun, hpending, hfirst⟩ := h.pass ht hr hp
    obtain ⟨more, l', n, h', hout, hn, hmore⟩ := ih h₁ hturns hrun hpending
    rw [List.append_assoc] at h'
    rw [htick] at hn hmore
    exact ⟨_, l', n, h', hout, List.mem_append_right _ hn,
      List.forall_mem_append.2 ⟨hfirst, hmore⟩⟩

/-- Whatever happens on a frame loop, it delivers, and a tick that waits for nobody can be brought
to its end. -/
theorem history_delivers (h : History log l) : Delivers log ∧
    ∀ turn outer, l.turns = turn :: outer → turn.running = none →
      ∃ more l' n, History (log ++ more) l' ∧ l'.turns = outer ∧
        .turned turn.tick (.finished n) ∈ more ∧ ∀ e ∈ more, e.GoesOn turn.tick :=
  ⟨h.delivers, fun _ _ ht hr => h.finish ht hr⟩

/-- The first of three subscribers cancels the second, subscribes a fourth and ticks again. -/
private def nestedTicks : List LoopEntry :=
  let outer : FrameTick := ⟨0, 0.25⟩
  let inner : FrameTick := ⟨1, 0.5⟩
  [.subscribed 0, .subscribed 1, .subscribed 2, .began outer, .turned outer (.call 0 outer),
    .cancelled 1, .subscribed 3, .began inner, .turned inner (.busy 0),
    .turned inner (.call 2 inner), .returned, .turned inner (.call 3 inner), .returned,
    .turned inner (.finished 2), .returned, .turned outer (.gone 1),
    .turned outer (.call 2 outer), .returned, .turned outer (.finished 2)]

/-- A history in which a tick begins within a tick and every kind of step occurs. -/
theorem nested_ticks_deliver : (∃ l, History nestedTicks l) ∧ Delivers nestedTicks := by
  have h := History.start
    |>.next (.subscribe _) |>.next (.subscribe _) |>.next (.subscribe _)
    |>.next (.begin _ 0.25) |>.next (.step rfl rfl)
    |>.next (@Happens.cancel _ 1 (by decide)) |>.next (.subscribe _)
    |>.next (.begin _ 0.5) |>.next (.step rfl rfl)
    |>.next (.step rfl rfl) |>.next (.returned rfl rfl)
    |>.next (.step rfl rfl) |>.next (.returned rfl rfl)
    |>.next (.step rfl rfl) |>.next (.returned rfl rfl)
    |>.next (.step rfl rfl)
    |>.next (.step rfl rfl) |>.next (.returned rfl rfl) |>.next (.step rfl rfl)
  have hnested : History nestedTicks _ := h
  exact ⟨⟨_, hnested⟩, (history_delivers hnested).1⟩

end FrameLoop

end MotionTemplate
