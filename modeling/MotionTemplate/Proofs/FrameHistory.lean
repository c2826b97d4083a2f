import Mathlib.Data.List.Induction
import MotionTemplate.Preview.FrameLoop

/-! Histories of a frame loop. A subscriber may do anything to the loop while it is called, so what
happens on a loop is told step by step, whoever does it. Who is registered and who is running can be
read off from what was told. -/
namespace MotionTemplate

/-- What happens on a frame loop. -/
inductive LoopEntry where
  | subscribed (id : Nat)
  | cancelled (id : Nat)
  | began (tick : FrameTick)
  /-- A step of the innermost tick. -/
  | turned (tick : FrameTick) (step : TurnStep)
  /-- The subscriber that was called last is back. -/
  | returned
deriving DecidableEq

/-- The subscriber whose turn a step is. -/
def TurnStep.subject? : TurnStep → Option Nat
  | .call id _ | .gone id | .busy id => some id
  | .idle | .finished _ => none

/-- The subscriber that a step calls. -/
def TurnStep.called? : TurnStep → Option Nat
  | .call id _ => some id
  | _ => none

namespace LoopEntry

def subscription? : LoopEntry → Option Nat
  | .subscribed id => some id
  | _ => none

def tick? : LoopEntry → Option FrameTick
  | .began tick => some tick
  | _ => none

/-- The step of the tick of an index. -/
def stepOf? (index : Nat) : LoopEntry → Option TurnStep
  | .turned tick step => if tick.index = index then some step else none
  | _ => none

/-- Who is registered after an entry. -/
def register (ids : List Nat) : LoopEntry → List Nat
  | .subscribed id => ids ++ [id]
  | .cancelled id => ids.erase id
  | _ => ids

/-- Who is running after an entry, the one that was called last first. -/
def runNext (ids : List Nat) : LoopEntry → List Nat
  | .turned _ (.call id _) => id :: ids
  | .returned => ids.tail
  | _ => ids

/-- The subscriptions made, the oldest first. -/
def subscriptions (log : List LoopEntry) : List Nat := log.filterMap subscription?

/-- The ticks begun, the oldest first. -/
def ticks (log : List LoopEntry) : List FrameTick := log.filterMap tick?

/-- The registered subscriptions, the oldest first. -/
def registered (log : List LoopEntry) : List Nat := log.foldl register []

/-- Those that were called and are not back yet. -/
def running (log : List LoopEntry) : List Nat := log.foldl runNext []

/-- The steps of the tick of an index. -/
def stepsOf (index : Nat) (log : List LoopEntry) : List TurnStep :=
  log.filterMap (stepOf? index)

variable {log : List LoopEntry} {e : LoopEntry} {index : Nat}

@[simp] theorem registered_concat : registered (log ++ [e]) = register (registered log) e := by
  simp [registered]

@[simp] theorem running_concat : running (log ++ [e]) = runNext (running log) e := by
  simp [running]

@[simp] theorem subscriptions_concat :
    subscriptions (log ++ [e]) = subscriptions log ++ e.subscription?.toList := by
  cases h : e.subscription? <;> simp [subscriptions, h]

@[simp] theorem ticks_concat : ticks (log ++ [e]) = ticks log ++ e.tick?.toList := by
  cases h : e.tick? <;> simp [ticks, h]

@[simp] theorem stepsOf_concat :
    stepsOf index (log ++ [e]) = stepsOf index log ++ (e.stepOf? index).toList := by
  cases h : e.stepOf? index <;> simp [stepsOf, h]

theorem registered_sublist (log : List LoopEntry) :
    (registered log).Sublist (subscriptions log) := by
  induction log using List.reverseRecOn with
  | nil => exact .refl _
  | append_singleton log e ih =>
    rw [registered_concat, subscriptions_concat]
    cases e with
    | subscribed id => exact ih.append_right [id]
    | cancelled id => exact List.erase_sublist.trans (ih.trans (List.sublist_append_left _ _))
    | began | turned | returned => exact ih.trans (List.sublist_append_left _ _)

end LoopEntry

namespace FrameLoop

open LoopEntry

/-- One thing happens. Only the innermost tick goes on, and only once the subscriber that it called
is back; anything else may be done at any time. -/
inductive Happens : FrameLoop → LoopEntry → FrameLoop → Prop where
  | subscribe (l : FrameLoop) : Happens l (.subscribed l.subscribe.2) l.subscribe.1
  | cancel (l : FrameLoop) {id : Nat} (h : id < l.nextId) :
      Happens l (.cancelled id) (l.cancel id)
  | begin (l : FrameLoop) (now : Float) :
      Happens l (.began ⟨l.frameIndex, now⟩) (l.begin now)
  | step {l : FrameLoop} {turn : Turn} {outer : List Turn} (ht : l.turns = turn :: outer)
      (hr : turn.running = none) : Happens l (.turned turn.tick l.step.2) l.step.1
  | returned {l : FrameLoop} {turn : Turn} {outer : List Turn} {id : Nat}
      (ht : l.turns = turn :: outer) (hr : turn.running = some id) :
      Happens l .returned l.returned

/-- All that happened on a loop, the earliest first. -/
inductive History : List LoopEntry → FrameLoop → Prop where
  | start : History [] .empty
  | next {log : List LoopEntry} {l l' : FrameLoop} {e : LoopEntry} (h : History log l)
      (he : l.Happens e l') : History (log ++ [e]) l'

variable {log before after : List LoopEntry} {l l' : FrameLoop} {e : LoopEntry} {turn : Turn}
  {outer : List Turn} {id : Nat}

/-- Every moment of a history has a history of its own. -/
theorem History.upTo (h : History (before ++ after) l) : ∃ l₀, History before l₀ := by
  induction after using List.reverseRecOn generalizing l with
  | nil => exact ⟨l, by simpa using h⟩
  | append_singleton after e ih =>
    rw [← List.append_assoc] at h
    generalize hlog : before ++ after ++ [e] = log at h
    cases h with
    | start => simp at hlog
    | next h he =>
      obtain ⟨hinit, -⟩ := List.append_inj' hlog rfl
      exact ih (hinit ▸ h)

/-- The last entry of a history happened at the moment before. -/
theorem History.last (h : History (log ++ [e]) l') : ∃ l, History log l ∧ l.Happens e l' := by
  generalize hlog : log ++ [e] = whole at h
  cases h with
  | start => simp at hlog
  | next h he =>
    obtain ⟨rfl, hlast⟩ := List.append_inj' hlog rfl
    obtain rfl := List.singleton_inj.1 hlast
    exact ⟨_, h, he⟩

/-- The ticks in progress, the innermost first. -/
def ticks (l : FrameLoop) : List FrameTick := l.turns.map (·.tick)

/-- Who is being called, the one that was called last first. -/
def running (l : FrameLoop) : List Nat := l.turns.filterMap (·.running)

private theorem isRunning_iff : l.isRunning id = true ↔ id ∈ l.running := by
  simp [isRunning, running]

/-- What a step of the innermost tick comes to, and what it leaves. -/
theorem step_cases (ht : l.turns = turn :: outer) :
    (turn.pending = [] ∧ l.step = ({ l with turns := outer }, .finished turn.invoked)) ∨
      ∃ id rest, turn.pending = id :: rest ∧
        ((id ∉ l.subscribers ∧
            l.step = ({ l with turns := { turn with pending := rest } :: outer }, .gone id)) ∨
          (id ∈ l.subscribers ∧ id ∈ l.running ∧
            l.step = ({ l with turns := { turn with pending := rest } :: outer }, .busy id)) ∨
          (id ∈ l.subscribers ∧ id ∉ l.running ∧
            l.step = ({ l with
              turns := { turn with
                pending := rest, running := some id, invoked := turn.invoked + 1 } :: outer },
              .call id turn.tick))) := by
  cases hp : turn.pending with
  | nil => exact .inl ⟨rfl, by simp [step, ht, hp]⟩
  | cons id rest =>
    refine .inr ⟨id, rest, rfl, ?_⟩
    by_cases hs : id ∈ l.subscribers
    · have hactive : l.isActive id = true := by simpa [isActive] using hs
      by_cases hr : id ∈ l.running
      · have hbusy := isRunning_iff.2 hr
        exact .inr (.inl ⟨hs, hr, by simp [step, ht, hp, hactive, hbusy]⟩)
      · have hfree : l.isRunning id = false := Bool.eq_false_iff.2 (mt isRunning_iff.1 hr)
        exact .inr (.inr ⟨hs, hr, by simp [step, ht, hp, hactive, hfree]⟩)
    · have hgone : l.isActive id = false := by simpa [isActive] using hs
      exact .inl ⟨hs, by simp [step, ht, hp, hgone]⟩

theorem returned_eq (ht : l.turns = turn :: outer) :
    l.returned = { l with turns := { turn with running := none } :: outer } := by
  simp [returned, ht]

/-- What an entry says of the loop before and after it. -/
private structure Effect (l : FrameLoop) (e : LoopEntry) (l' : FrameLoop) : Prop where
  subscribers : l'.subscribers = register l.subscribers e
  running : l'.running = runNext l.running e
  ids : List.range l'.nextId = List.range l.nextId ++ e.subscription?.toList
  indices : List.range l'.frameIndex =
    List.range l.frameIndex ++ (e.tick?.toList).map (·.index)
  ticks : l'.ticks.Sublist (e.tick?.toList ++ l.ticks)

private theorem effect_step (ht : l.turns = turn :: outer) (hr : turn.running = none) :
    Effect l (.turned turn.tick l.step.2) l.step.1 := by
  have hticks : l.ticks = turn.tick :: outer.map (·.tick) := by rw [ticks, ht, List.map_cons]
  have hrunning : l.running = outer.filterMap (·.running) := by
    rw [running, ht, List.filterMap_cons_none hr]
  have hids := (List.append_nil (List.range l.nextId)).symm
  have hindices := (List.append_nil (List.range l.frameIndex)).symm
  obtain ⟨-, hs⟩ | ⟨id, rest, -, ⟨-, hs⟩ | ⟨-, -, hs⟩ | ⟨-, -, hs⟩⟩ := step_cases ht <;> rw [hs]
  · refine ⟨rfl, hrunning.symm, hids, hindices, ?_⟩
    rw [hticks]
    exact List.sublist_cons_self _ _
  · exact ⟨rfl, (List.filterMap_cons_none hr).trans hrunning.symm, hids, hindices,
      hticks ▸ .refl _⟩
  · exact ⟨rfl, (List.filterMap_cons_none hr).trans hrunning.symm, hids, hindices,
      hticks ▸ .refl _⟩
  · exact ⟨rfl, hrunning ▸ rfl, hids, hindices, hticks ▸ .refl _⟩

private theorem effect_returned (ht : l.turns = turn :: outer) (hr : turn.running = some id) :
    Effect l .returned l.returned := by
  have hticks : l.ticks = turn.tick :: outer.map (·.tick) := by rw [ticks, ht, List.map_cons]
  have hrunning : l.running = id :: outer.filterMap (·.running) := by
    rw [running, ht, List.filterMap_cons_some hr]
  rw [returned_eq ht]
  exact ⟨rfl, hrunning ▸ rfl, (List.append_nil _).symm, (List.append_nil _).symm, hticks ▸ .refl _⟩

private theorem Happens.effect (he : l.Happens e l') : Effect l e l' := by
  cases he with
  | subscribe => exact ⟨rfl, rfl, List.range_succ, (List.append_nil _).symm, .refl _⟩
  | cancel => exact ⟨rfl, rfl, (List.append_nil _).symm, (List.append_nil _).symm, .refl _⟩
  | begin => exact ⟨rfl, rfl, (List.append_nil _).symm, List.range_succ, .refl _⟩
  | step ht hr => exact effect_step ht hr
  | returned ht hr => exact effect_returned ht hr

/-- What was told of a loop is what the loop knows. -/
structure Told (log : List LoopEntry) (l : FrameLoop) : Prop where
  registered : LoopEntry.registered log = l.subscribers
  running : LoopEntry.running log = l.running
  ids : subscriptions log = List.range l.nextId
  indices : (LoopEntry.ticks log).map (·.index) = List.range l.frameIndex
  begun : l.ticks ⊆ LoopEntry.ticks log
  /-- The innermost tick is the latest. -/
  nested : l.ticks.Pairwise (·.index > ·.index)

theorem History.told (h : History log l) : Told log l := by
  induction h with
  | start => exact ⟨rfl, rfl, rfl, rfl, nofun, .nil⟩
  | @next log l l' e _ he ih =>
    have he := he.effect
    refine ⟨?_, ?_, ?_, ?_, ?_, .sublist he.ticks (List.pairwise_append.2 ⟨?_, ih.nested, ?_⟩)⟩
    · rw [registered_concat, ih.registered, he.subscribers]
    · rw [running_concat, ih.running, he.running]
    · rw [subscriptions_concat, ih.ids, he.ids]
    · rw [ticks_concat, List.map_append, ih.indices, he.indices]
    · rw [ticks_concat]
      exact List.Subset.trans he.ticks.subset (List.append_subset.2
        ⟨List.subset_append_right _ _, List.Subset.trans ih.begun (List.subset_append_left _ _)⟩)
    · cases e.tick? with
      | none => exact .nil
      | some tick => exact List.pairwise_singleton _ _
    · -- the indices so far are below that of a new tick
      have hlt := he.indices ▸ List.pairwise_lt_range (n := l'.frameIndex)
      intro new hnew tick ht
      refine (List.pairwise_append.1 hlt).2.2 _ ?_ _ (List.mem_map_of_mem hnew)
      exact ih.indices ▸ List.mem_map_of_mem (ih.begun ht)

/-- Those that are registered are in the order in which they subscribed. -/
theorem Told.ordered (h : Told log l) : (LoopEntry.registered log).Pairwise (· < ·) :=
  .sublist (registered_sublist log) (h.ids ▸ List.pairwise_lt_range)

end FrameLoop

end MotionTemplate
