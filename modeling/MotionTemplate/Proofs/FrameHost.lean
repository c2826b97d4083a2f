import MotionTemplate.Preview.FrameScript
import MotionTemplate.Proofs.FrameHistory
import MotionTemplate.Proofs.KeyMap

/-! What a host and its subscribers do to a frame loop is a history of it. However deep the scripts
of subscribers are nested, the calls that are told are the calls that the host records. -/
namespace MotionTemplate

/-- The tick that a called subscriber is told. -/
def LoopEntry.told? : LoopEntry → Option FrameTick
  | .turned _ (.call _ told) => some told
  | _ => none

/-- The tick that a called subscriber was told. -/
def ScriptEntry.told? : ScriptEntry → Option FrameTick
  | .called _ tick => some tick
  | .did .. => none

namespace ScriptHost

open FrameLoop (History)

/-- What was told of the loop of a host. Its handles are subscriptions of the loop, and all that are
registered are kept. -/
structure Tells (log : List LoopEntry) (h : ScriptHost) : Prop where
  history : History log h.loop
  calls : log.filterMap (·.told?) = h.log.filterMap (·.told?)
  handles : ∀ e ∈ h.handles.entries, e.2 < h.loop.nextId
  owned : ∀ c ∈ h.callbacks, ∀ id, c.owned = some id → id < h.loop.nextId
  kept : ∀ id ∈ h.loop.subscribers, ∃ c ∈ h.callbacks, c.id = id

/-- A host may go on from one moment to another. -/
def Goes (h h' : ScriptHost) : Prop := ∀ log, Tells log h → ∃ more, Tells (log ++ more) h'

variable {log : List LoopEntry} {h h₁ h₂ : ScriptHost} {id : Nat}

theorem Goes.of_tells (hgoes : ∀ log, Tells log h → Tells log h₁) : Goes h h₁ :=
  fun log ht => ⟨[], by simpa using hgoes log ht⟩

theorem Goes.refl (h : ScriptHost) : Goes h h := .of_tells fun _ ht => ht

private theorem Tells.goOn {more : List LoopEntry} (ht : Tells (log ++ more) h)
    (hgoes : Goes h h₁) : ∃ rest, Tells (log ++ rest) h₁ := by
  obtain ⟨rest, ht⟩ := hgoes _ ht
  exact ⟨more ++ rest, by rwa [← List.append_assoc]⟩

theorem Goes.trans (hab : Goes h h₁) (hbc : Goes h₁ h₂) : Goes h h₂ := by
  intro log ht
  obtain ⟨more, ht⟩ := hab log ht
  exact ht.goOn hbc

theorem Tells.cancel (ht : Tells log h) (hid : id < h.loop.nextId) :
    Tells (log ++ [.cancelled id]) { h with loop := h.loop.cancel id } where
  history := ht.history.next (.cancel _ hid)
  calls := by simpa [LoopEntry.told?] using ht.calls
  handles := ht.handles
  owned := ht.owned
  kept j hj := ht.kept j (List.mem_of_mem_erase hj)

/-- A subscription is taken back, if there is one. -/
private theorem Tells.cancelAny {id : Option Nat} (ht : Tells log h)
    (hid : ∀ i, id = some i → i < h.loop.nextId) :
    ∃ more, Tells (log ++ more) { h with loop := id.elim h.loop h.loop.cancel } := by
  cases id with
  | none => exact ⟨[], by simpa using ht⟩
  | some i => exact ⟨_, ht.cancel (hid i rfl)⟩

/-- What is not registered need not be kept. -/
private theorem goes_forget (hid : id ∉ h.loop.subscribers) :
    Goes h { h with callbacks := h.callbacks.filter (·.id ≠ id) } := by
  refine .of_tells fun log ht => ⟨ht.history, ht.calls, ht.handles, ?_, ?_⟩
  · intro c hc
    exact ht.owned c (List.mem_of_mem_filter hc)
  · intro j hj
    obtain ⟨c, hc, rfl⟩ := ht.kept j hj
    have hne : c.id ≠ id := fun heq => hid (heq ▸ hj)
    exact ⟨c, List.mem_filter.2 ⟨hc, by simpa using hne⟩, rfl⟩

private theorem goes_collect (fuel : Nat) (h : ScriptHost) :
    Goes h (collect fuel h) ∧ (collect fuel h).loop.turns = h.loop.turns := by
  induction fuel generalizing h with
  | zero => exact ⟨.refl h, rfl⟩
  | succ fuel ih =>
    rw [collect]
    split
    · exact ⟨.refl h, rfl⟩
    · next c hc =>
      have hkept := List.find?_some hc
      simp only [isKept, FrameLoop.isActive, Bool.not_or, Bool.and_eq_true, Bool.not_eq_true',
        List.contains_eq_mem, decide_eq_false_iff_not] at hkept
      let loop := c.owned.elim h.loop h.loop.cancel
      have hcancel : Goes h { h with loop } :=
        fun _ ht => ht.cancelAny (ht.owned c (List.mem_of_find?_eq_some hc))
      have hloop : c.id ∉ loop.subscribers ∧ loop.turns = h.loop.turns := by
        change c.id ∉ (c.owned.elim h.loop h.loop.cancel).subscribers ∧
          (c.owned.elim h.loop h.loop.cancel).turns = h.loop.turns
        cases c.owned with
        | none => exact ⟨hkept.1, rfl⟩
        | some id => exact ⟨fun hmem => hkept.1 (List.mem_of_mem_erase hmem), rfl⟩
      have hforget := goes_forget (h := { h with loop }) hloop.1
      obtain ⟨hrest, hturns⟩ := ih { h with
        callbacks := h.callbacks.filter (·.id ≠ c.id), loop }
      exact ⟨hcancel.trans (hforget.trans hrest), hturns.trans hloop.2⟩

/-- Letting go of the loop takes back every subscription. -/
private theorem goes_clear (h : ScriptHost) :
    Goes h { h with loop := { h.loop with subscribers := [] } } := by
  generalize hids : h.loop.subscribers = ids
  induction ids generalizing h with
  | nil =>
    rw [← hids]
    exact .refl h
  | cons id rest ih =>
    have hrest : (h.loop.cancel id).subscribers = rest := by
      rw [FrameLoop.cancel, hids, List.erase_cons_head]
    intro log ht
    have hmem : id ∈ LoopEntry.registered log := by
      rw [ht.history.told.registered, hids]
      exact List.mem_cons_self
    have hid : id < h.loop.nextId := by
      rw [← List.mem_range, ← ht.history.told.ids]
      exact (LoopEntry.registered_sublist log).subset hmem
    exact (ht.cancel hid).goOn (ih { h with loop := h.loop.cancel id } hrest)

private theorem goes_settled (h : ScriptHost) :
    Goes h (settled h) ∧ (settled h).loop.turns = h.loop.turns := by
  rw [settled]
  split
  · obtain ⟨hcollect, hturns⟩ := goes_collect h.callbacks.length
      { h with loop := { h.loop with subscribers := [] } }
    exact ⟨(goes_clear h).trans hcollect, hturns⟩
  · exact goes_collect h.callbacks.length h

private theorem Tells.cancelId {id : Option Nat} (ht : Tells log h)
    (hid : ∀ i, id = some i → i < h.loop.nextId) :
    ∃ more, Tells (log ++ more) (h.cancelId id) := by
  obtain ⟨more, ht⟩ := ht.cancelAny hid
  exact ht.goOn (goes_settled _).1

private theorem Tells.lt_of_find? (ht : Tells log h) {name : String}
    (hid : h.handles.find? name = some id) : id < h.loop.nextId :=
  ht.handles _ (KeyMap.mem_of_find? hid)

private theorem goes_subscribe (h : ScriptHost) (name : String) (actions : List LoopAction)
    (owned : Option String) : Goes h (h.subscribe name actions owned) := by
  intro log ht
  let handles := owned.elim h.handles h.handles.erase
  let taken := owned.bind h.handles.find?
  have hhandles : ∀ e ∈ handles.entries, e.2 < h.loop.nextId := by
    intro e he
    cases owned with
    | none => exact ht.handles e he
    | some other => exact ht.handles e (List.mem_of_mem_filter he)
  have htaken : ∀ id, taken = some id → id < h.loop.nextId := by
    intro id hid
    obtain ⟨other, -, hother⟩ := Option.bind_eq_some_iff.1 hid
    exact ht.lt_of_find? hother
  have hnext : Tells (log ++ [.subscribed h.loop.nextId]) { h with
      loop := h.loop.subscribe.1
      handles := handles.insert name h.loop.nextId
      callbacks := h.callbacks ++ [⟨h.loop.nextId, name, actions, taken⟩] } := by
    refine ⟨ht.history.next (.subscribe _), ?_, ?_, ?_, ?_⟩
    · simpa [LoopEntry.told?] using ht.calls
    · intro e he
      rcases KeyMap.mem_insertEntry he with rfl | he
      · exact Nat.lt_succ_self _
      · exact Nat.lt_succ_of_lt (hhandles e he)
    · intro c hc id hid
      rcases List.mem_append.1 hc with hc | hc
      · exact Nat.lt_succ_of_lt (ht.owned c hc id hid)
      · obtain rfl := List.mem_singleton.1 hc
        exact Nat.lt_succ_of_lt (htaken id hid)
    · intro id hid
      rcases List.mem_append.1 hid with hid | hid
      · obtain ⟨c, hc, rfl⟩ := ht.kept id hid
        exact ⟨c, List.mem_append_left _ hc, rfl⟩
      · exact ⟨_, List.mem_append_right _ List.mem_cons_self, (List.mem_singleton.1 hid).symm⟩
  have hold : ∀ id, handles.find? name = some id → id < h.loop.nextId + 1 := by
    intro id hid
    exact Nat.lt_succ_of_lt (hhandles _ (KeyMap.mem_of_find? hid))
  exact hnext.goOn fun _ ht => ht.cancelId hold

private theorem goes_direct (h : ScriptHost) (a : LoopAction) : Goes h (h.direct a).1 := by
  cases a with
  | subscribe name actions owned =>
    rw [direct]
    split
    · exact goes_subscribe h name actions owned
    · exact .refl h
  | cancel name =>
    intro log ht
    have herase : Tells log { h with handles := h.handles.erase name } :=
      ⟨ht.history, ht.calls, fun e he => ht.handles e (List.mem_of_mem_filter he), ht.owned,
        ht.kept⟩
    exact herase.cancelId fun id hid => ht.lt_of_find? hid
  | drop =>
    have hlet : Goes h { h with holds := false } :=
      .of_tells fun log ht => ⟨ht.history, ht.calls, ht.handles, ht.owned, ht.kept⟩
    exact hlet.trans (goes_settled _).1
  | isActive | tick | count | describe => exact .refl h

/-- The subscriber that was called last comes back, if there is one. -/
private theorem goes_returned (h : ScriptHost) : Goes h { h with loop := h.loop.returned } := by
  intro log ht
  cases hturns : h.loop.turns with
  | nil =>
    have hs : h.loop.returned = h.loop := by simp [FrameLoop.returned, hturns]
    rw [hs]
    exact ⟨[], by simpa using ht⟩
  | cons turn outer =>
    cases hr : turn.running with
    | none =>
      have hs : h.loop.returned = h.loop := by
        rw [FrameLoop.returned_eq hturns, ← hr, ← hturns]
      rw [hs]
      exact ⟨[], by simpa using ht⟩
    | some id =>
      have hs := FrameLoop.returned_eq hturns
      refine ⟨[.returned], ht.history.next (.returned hturns hr), ?_, ?_, ?_, ?_⟩
      · simpa [LoopEntry.told?] using ht.calls
      all_goals rw [hs]
      · exact ht.handles
      · exact ht.owned
      · exact ht.kept

/-- The innermost tick waits for nobody. -/
private def Waitless (l : FrameLoop) : Prop := ∀ turn ∈ l.turns.head?, turn.running = none

private theorem waitless_returned (l : FrameLoop) : Waitless l.returned := by
  rw [FrameLoop.returned]
  split
  · next h => simp [Waitless, h]
  · simp [Waitless]

/-- The calls that a step of the loop adds. -/
private theorem Tells.step {turn : Turn} {outer : List Turn} (ht : Tells log h)
    (hturns : h.loop.turns = turn :: outer) (hr : turn.running = none) (events : List Event)
    (more : List ScriptEntry)
    (hmore : more.filterMap (·.told?) = (LoopEntry.turned turn.tick h.loop.step.2).told?.toList) :
    Tells (log ++ [.turned turn.tick h.loop.step.2])
      { h with loop := h.loop.step.1, events, log := h.log ++ more } := by
  have hkeep : h.loop.step.1.nextId = h.loop.nextId ∧
      h.loop.step.1.subscribers = h.loop.subscribers := by
    obtain ⟨-, hs⟩ | ⟨id, rest, -, ⟨-, hs⟩ | ⟨-, -, hs⟩ | ⟨-, -, hs⟩⟩ :=
      FrameLoop.step_cases hturns <;> rw [hs] <;> exact ⟨rfl, rfl⟩
  refine ⟨ht.history.next (.step hturns hr), ?_, ?_, ?_, ?_⟩
  · rw [List.filterMap_append, List.filterMap_append, ht.calls, hmore]
    cases hcall : (LoopEntry.turned turn.tick h.loop.step.2).told? <;> simp [hcall]
  · rw [hkeep.1]
    exact ht.handles
  · rw [hkeep.1]
    exact ht.owned
  · rw [hkeep.2]
    exact ht.kept

private theorem goes_begin (h : ScriptHost) (now : Float) :
    Goes h { h with loop := h.loop.begin now } := by
  intro log ht
  refine ⟨[.began ⟨h.loop.frameIndex, now⟩], ht.history.next (.begin _ now), ?_, ht.handles,
    ht.owned, ht.kept⟩
  simpa [LoopEntry.told?] using ht.calls

/-- What an action answers is told of no loop. -/
private theorem goes_did (h : ScriptHost) (name : String) (a : LoopAction) (r : ActionResult) :
    Goes h { h with log := h.log ++ [.did name a r] } :=
  .of_tells fun log ht => ⟨ht.history, by simpa [ScriptEntry.told?] using ht.calls, ht.handles,
    ht.owned, ht.kept⟩

/-- A turn is taken to its end, if the scripts of subscribers go on and the rest of it does. -/
private theorem goes_takeTurn {fuel : Nat}
    (hturn : ∀ h, Waitless h.loop → Goes h (takeTurn fuel h).1)
    (hall : ∀ h name actions, Goes h (performAll fuel h name actions))
    (hw : Waitless h.loop) : Goes h (takeTurn (fuel + 1) h).1 := by
  cases hturns : h.loop.turns with
  | nil =>
    have hs : h.loop.step = (h.loop, .idle) := by simp [FrameLoop.step, hturns]
    simp only [takeTurn, hs]
    exact .of_tells fun log ht => ⟨ht.history, ht.calls, ht.handles, ht.owned, ht.kept⟩
  | cons turn outer =>
    have hr : turn.running = none := hw turn (by simp [hturns])
    have hrest {h₁ : ScriptHost} (hw₁ : Waitless h₁.loop) :
        Goes h₁ (takeTurn fuel (settled h₁)).1 := by
      obtain ⟨hsettled, hsame⟩ := goes_settled h₁
      refine hsettled.trans (hturn _ ?_)
      rwa [Waitless, hsame]
    intro log ht
    have hstep := ht.step hturns hr
    obtain ⟨-, hs⟩ | ⟨id, rest, -, ⟨-, hs⟩ | ⟨-, -, hs⟩ | ⟨hsub, -, hs⟩⟩ :=
      FrameLoop.step_cases hturns <;> rw [hs] at hstep <;> simp only [takeTurn, hs]
    · have hover := hstep (h.events ++ FrameLoop.stepEvents (.finished turn.invoked)) [] rfl
      rw [List.append_nil] at hover
      exact hover.goOn (goes_settled _).1
    · have hgone := hstep (h.events ++ FrameLoop.stepEvents (.gone id)) [] rfl
      rw [List.append_nil] at hgone
      exact hgone.goOn (hrest (by simp [Waitless, hr]))
    · have hbusy := hstep (h.events ++ FrameLoop.stepEvents (.busy id)) [] rfl
      rw [List.append_nil] at hbusy
      exact hbusy.goOn (hrest (by simp [Waitless, hr]))
    · obtain ⟨c, hc, hid⟩ := ht.kept id hsub
      have hfound : (h.callbacks.find? (·.id = id)).isSome :=
        List.find?_isSome.2 ⟨c, hc, by simpa using hid⟩
      obtain ⟨c, hc⟩ := Option.isSome_iff_exists.1 hfound
      simp only [hc]
      have hcalled := hstep (h.events ++ FrameLoop.stepEvents (.call id turn.tick))
        [.called c.name turn.tick] rfl
      exact hcalled.goOn ((hall _ c.name c.actions).trans
        ((goes_returned _).trans (hrest (waitless_returned _))))

/-- Whatever a host does and however far the fuel reaches, it goes on. -/
private theorem goes (fuel : Nat) :
    (∀ h a, Goes h (perform fuel h a).1) ∧
      (∀ h, Waitless h.loop → Goes h (takeTurn fuel h).1) ∧
        ∀ h name actions, Goes h (performAll fuel h name actions) := by
  induction fuel with
  | zero => exact ⟨fun h _ => .refl h, fun h _ => .refl h, fun h _ _ => .refl h⟩
  | succ fuel ih =>
    obtain ⟨hperform, hturn, hall⟩ := ih
    refine ⟨fun h a => ?_, fun h hw => goes_takeTurn hturn hall hw, fun h name actions => ?_⟩
    · cases a with
      | tick now =>
        rw [perform]
        split
        · refine (goes_begin h now).trans (hturn _ ?_)
          simp [Waitless, FrameLoop.begin]
        · exact .refl h
      | subscribe | cancel | isActive | count | describe | drop => exact goes_direct h _
    · cases actions with
      | nil => exact .refl h
      | cons a rest =>
        rw [performAll]
        exact (hperform h a).trans ((goes_did _ _ _ _).trans (hall _ _ _))

/-- What a host does to its loop is a history, with the calls that the host records. -/
theorem run_tells (actions : List LoopAction) :
    ∃ log, Tells log (actions.foldl (fun h a => (h.run a).1) .empty) := by
  have hrun (h : ScriptHost) : Goes h (actions.foldl (fun h a => (h.run a).1) h) := by
    induction actions generalizing h with
    | nil => exact .refl h
    | cons a rest ih => exact ((goes _).1 h a).trans (ih _)
  obtain ⟨log, ht⟩ := hrun .empty [] ⟨.start, rfl, nofun, nofun, nofun⟩
  exact ⟨_, ht⟩

end ScriptHost

end MotionTemplate
