import Mathlib.Algebra.Group.ModEq
import Mathlib.Algebra.Order.Floor.Ring
import Mathlib.Data.Rat.Floor
import Mathlib.Tactic.Linarith
import Mathlib.Tactic.Ring
import MotionTemplate.Proofs.PlayheadStep

/-! Playing time on exact numbers. A looping playhead is always where its last jump went, plus all
the time on the wall that it has spent playing since, in whole loops less. -/
namespace MotionTemplate

/-- A measure without rounding. Which numbers count as finite is left open. -/
class ExactMeasure (α : Type) [Field α] [LinearOrder α] [FloorRing α] extends Measure α where
  wrap_eq (value period : α) : Measure.wrap value period = value - ⌊value / period⌋ * period

/-- The rational numbers, all of them finite. -/
instance : ExactMeasure ℚ where
  isFinite _ := true
  isNaN _ := false
  wrap value period := value - ⌊value / period⌋ * period
  wrap_eq _ _ := rfl

namespace Transport

variable {α : Type}

/-- The time on the wall at which an action takes place. -/
def wall? : Transport α → Option α
  | .play now | .pause now | .toggle now | .scrubTo _ now | .beginScrub now | .endScrub now
  | .advance now | .setDuration _ now => some now
  | .setLoop _ => none

/-- An action at a time on the wall that keeps a loop and its duration. -/
def KeepsLoop [Measure α] (duration : α) (action : Transport α) : Prop :=
  (∃ now, action.wall? = some now ∧ Measure.isFinite now = true) ∧
    ∀ secs now, action = .setDuration secs now → secs = duration

end Transport

/-- A run on a loop of one duration, at finite times on the wall that never go back. -/
structure LoopRun {α : Type} [Measure α] [LE α] (duration : α) (actions : List (Transport α)) :
    Prop where
  keeps : ∀ action ∈ actions, action.KeepsLoop duration
  ordered : (actions.filterMap Transport.wall?).Pairwise (· ≤ ·)

/-- A record of playback that is kept beside a playhead. -/
structure PlayRecord (α : Type) where
  /-- Where the last jump went. -/
  position : α
  /-- The time on the wall spent playing since that jump. -/
  played : α
  /-- When the last action took place. -/
  wall : α
deriving DecidableEq

variable {α : Type} [Field α] [LinearOrder α]

namespace PlayRecord

/-- Nothing was played yet. -/
def start : PlayRecord α := ⟨0, 0, 0⟩

/-- The record when the time on the wall has moved on. It counts while the playhead plays. -/
def moveOn (r : PlayRecord α) (p : Playhead α) (now : α) : PlayRecord α :=
  { r with
    played := if p.mode = .playing then r.played + (now - r.wall) else r.played
    wall := now }

variable [FloorRing α] [ExactMeasure α]

/-- The record after an action of a playhead. A jump to a finite time begins anew. -/
def after (r : PlayRecord α) (p : Playhead α) (action : Transport α) : PlayRecord α :=
  match action, action.wall? with
  | _, none => r
  | .scrubTo t _, some now =>
    if Measure.isFinite t then ⟨Number.clamp t 0 p.duration, 0, now⟩ else r.moveOn p now
  | _, some now => r.moveOn p now

/-- The record after a run. -/
def ofRun (p : Playhead α) (r : PlayRecord α) : List (Transport α) → PlayRecord α
  | [] => r
  | action :: rest => ofRun (p.act action) (r.after p action) rest

theorem ofRun_append (p : Playhead α) (r : PlayRecord α) (actions : List (Transport α))
    (action : Transport α) :
    r.ofRun p (actions ++ [action]) = (r.ofRun p actions).after (actions.foldl .act p) action := by
  induction actions generalizing p r with
  | nil => rfl
  | cons first rest ih => exact ih (p.act first) (r.after p first)

end PlayRecord

namespace Playhead

open AddCommGroup (ModEq)

section

variable {d now : α} {p : Playhead α} {r : PlayRecord α}

/-- The time reached at a time on the wall, before it is wrapped. -/
def reached (p : Playhead α) (now : α) : α :=
  if p.mode = .playing then p.anchorTime + (now - p.anchorWall) else p.time

/-- A playhead that loops over one duration, with the time in the loop. -/
private structure Loops (d : α) (p : Playhead α) : Prop where
  looping : p.looping = true
  duration : p.duration = d
  time_nonneg : 0 ≤ p.time
  time_le : p.time ≤ d

/-- A record accounts for the time that a looping playhead has reached. -/
private structure Accounts (d : α) (r : PlayRecord α) (p : Playhead α) : Prop extends
    Loops d p where
  anchored : p.mode = .playing → p.anchorWall ≤ r.wall
  reached : ModEq d (p.reached r.wall) (r.position + r.played)

/-- Whether it plays or not, the record moves on as the time reached does. -/
private theorem Accounts.reached_moveOn (h : Accounts d r p) (now : α) :
    ModEq d (p.reached now) ((r.moveOn p now).position + (r.moveOn p now).played) := by
  have hr := h.reached
  unfold Playhead.reached PlayRecord.moveOn at *
  split_ifs at hr ⊢ with hm
  · have hsum := hr.add_right (now - r.wall)
    rwa [show p.anchorTime + (r.wall - p.anchorWall) + (now - r.wall) =
      p.anchorTime + (now - p.anchorWall) by ring, add_assoc] at hsum
  · exact hr

private theorem Accounts.time_moveOn (h : Accounts d r p) (hm : p.mode ≠ .playing) (now : α) :
    ModEq d p.time ((r.moveOn p now).position + (r.moveOn p now).played) := by
  have hr := h.reached_moveOn now
  rwa [Playhead.reached, if_neg hm] at hr

private theorem Accounts.resuming (h : Accounts d r p) (resumes : Bool) :
    Accounts d r { p with resumes } where
  looping := h.looping
  duration := h.duration
  time_nonneg := h.time_nonneg
  time_le := h.time_le
  anchored := h.anchored
  reached := h.reached

/-- Nothing is done to the playhead. -/
private theorem Accounts.moveOn (h : Accounts d r p) (hw : p.mode = .playing → r.wall ≤ now) :
    Accounts d (r.moveOn p now) p where
  toLoops := h.toLoops
  anchored hm := (h.anchored hm).trans (hw hm)
  reached := h.reached_moveOn now

/-- A playhead that stands accounts for its time. -/
private theorem Loops.accounts_of_not_playing (h : Loops d p) (hm : p.mode ≠ .playing)
    (ht : ModEq d p.time (r.position + r.played)) : Accounts d r p where
  toLoops := h
  anchored hp := absurd hp hm
  reached := by rwa [Playhead.reached, if_neg hm]

private theorem clamp_mem (hd : 0 < d) (t : α) :
    0 ≤ Number.clamp t 0 d ∧ Number.clamp t 0 d ≤ d := by
  rw [Number.clamp]
  split_ifs with h0 h1
  · exact ⟨le_rfl, hd.le⟩
  · exact ⟨hd.le, le_rfl⟩
  · exact ⟨not_lt.1 h0, not_lt.1 h1⟩

/-- A loop is as long as before, so its time stays where it is. -/
private theorem clamp_of_loops (h : Loops d p) : Number.clamp p.time 0 d = p.time := by
  rw [Number.clamp, if_neg h.time_nonneg.not_gt, if_neg h.time_le.not_gt]

end

/-! ### Actions that leave the time or set it -/

section

variable [FloorRing α] [ExactMeasure α] {d now : α} {p : Playhead α} {r : PlayRecord α}

/-- A playhead that is anchored at its time accounts for it, whether it plays on or not. -/
private theorem Loops.accounts_anchor (h : Loops d p) (hn : Measure.isFinite now = true)
    (hw : r.wall = now) (ht : ModEq d p.time (r.position + r.played)) :
    Accounts d r (p.anchor now) where
  looping := h.looping
  duration := h.duration
  time_nonneg := h.time_nonneg
  time_le := h.time_le
  anchored _ := by rw [hw, anchor, if_pos hn]
  reached := by
    have hreached : (p.anchor now).reached now = p.time := by
      simp [Playhead.reached, anchor, hn]
    rwa [hw, hreached]

private theorem accounts_play (h : Accounts d r p) (hn : Measure.isFinite now = true)
    (hw : p.mode = .playing → r.wall ≤ now) : Accounts d (r.moveOn p now) (p.play now) := by
  unfold play
  split
  · exact h.moveOn hw
  · exact (h.moveOn hw).resuming true
  · next hm =>
    have ht := h.time_moveOn (by simp [hm]) now
    have hloops : Loops d { p with mode := .playing } :=
      ⟨h.looping, h.duration, h.time_nonneg, h.time_le⟩
    -- a loop is never over, so its time is not set back
    have hover : ¬ (!p.looping ∧ p.duration ≤ p.time) := by simp [h.looping]
    simp only [if_neg hover]
    exact hloops.accounts_anchor hn rfl ht

private theorem accounts_endScrub (h : Accounts d r p) (hn : Measure.isFinite now = true)
    (hw : p.mode = .playing → r.wall ≤ now) : Accounts d (r.moveOn p now) (p.endScrub now) := by
  unfold endScrub
  split
  · next hm =>
    have ht := h.time_moveOn (by simp [hm]) now
    have hloops : Loops d { p with
        mode := if p.resumes then .playing else .stopped, resumes := false } :=
      ⟨h.looping, h.duration, h.time_nonneg, h.time_le⟩
    exact hloops.accounts_anchor hn rfl ht
  · exact h.moveOn hw

private theorem accounts_scrubTo (h : Accounts d r p) (hd : 0 < d) (t : α)
    (hn : Measure.isFinite now = true) (hw : p.mode = .playing → r.wall ≤ now) :
    Accounts d (r.after p (.scrubTo t now)) (p.scrubTo t now) := by
  simp only [scrubTo, PlayRecord.after, Transport.wall?]
  split
  · obtain ⟨h0, hle⟩ := h.duration ▸ clamp_mem hd t
    have hloops : Loops d { p with time := Number.clamp t 0 p.duration } :=
      ⟨h.looping, h.duration, h0, hle.trans h.duration.le⟩
    refine hloops.accounts_anchor (r := ⟨Number.clamp t 0 p.duration, 0, now⟩) hn rfl ?_
    rw [add_zero]
  · exact h.moveOn hw

private theorem accounts_new (hd : usableDuration d) :
    Accounts d PlayRecord.start (Playhead.new d) := by
  have hloops : Loops d (Playhead.new d) :=
    ⟨rfl, if_pos hd, le_rfl, (usableDuration_iff.1 hd).2.le⟩
  refine hloops.accounts_of_not_playing nofun ?_
  rw [PlayRecord.start, add_zero]
  rfl

private theorem wrap_modEq (value period : α) : ModEq period (Measure.wrap value period) value := by
  rw [ExactMeasure.wrap_eq, AddCommGroup.modEq_iff_zsmul]
  exact ⟨⌊value / period⌋, by rw [zsmul_eq_mul]; ring⟩

end

/-! ### Actions that bring the time up to now -/

section

variable [FloorRing α] [ExactMeasure α] [IsStrictOrderedRing α] {d now : α} {p : Playhead α}
  {r : PlayRecord α}

private theorem wrap_eq_of_modEq {a b : α} (hd : 0 < d) (h : ModEq d a b) :
    Measure.wrap a d = Measure.wrap b d := by
  obtain ⟨k, hk⟩ := AddCommGroup.modEq_iff_zsmul.1 h
  have hb : b = a + k * d := by
    rw [zsmul_eq_mul] at hk
    linarith
  have hfloor : ⌊b / d⌋ = ⌊a / d⌋ + k := by
    rw [hb, add_div, mul_div_cancel_right₀ _ hd.ne', Int.floor_add_intCast]
  rw [ExactMeasure.wrap_eq, ExactMeasure.wrap_eq, hfloor, hb, Int.cast_add]
  ring

private theorem wrap_mem (hd : 0 < d) (value : α) :
    0 ≤ Measure.wrap value d ∧ Measure.wrap value d ≤ d := by
  have hvalue : value = value / d * d := (div_mul_cancel₀ value hd.ne').symm
  have hwrap : Measure.wrap value d = (value / d - ⌊value / d⌋) * d := by
    rw [ExactMeasure.wrap_eq, sub_mul, ← hvalue]
  have hlow : 0 ≤ value / d - ⌊value / d⌋ := sub_nonneg.2 (Int.floor_le _)
  have hhigh : value / d - ⌊value / d⌋ ≤ 1 := (sub_lt_iff_lt_add'.2 (Int.lt_floor_add_one _)).le
  rw [hwrap]
  exact ⟨mul_nonneg hlow hd.le, mul_le_of_le_one_left hd.le hhigh⟩

/-- A playing playhead is moved to the time it has reached. -/
private theorem Accounts.advance_eq (h : Accounts d r p) (hm : p.mode = .playing)
    (hn : Measure.isFinite now = true) (hw : r.wall ≤ now) :
    p.advance now = { p with time := Measure.wrap (p.reached now) d } := by
  have helapsed : p.rawTime now = p.reached now := by
    rw [rawTime, Playhead.reached, if_pos hm, Number.atLeastZero]
    have hle : 0 ≤ now - p.anchorWall := sub_nonneg.2 ((h.anchored hm).trans hw)
    split_ifs with h0
    · rfl
    · rw [le_antisymm (not_lt.1 h0) hle]
  obtain ⟨-, heq⟩ | ⟨hl, -⟩ | ⟨hl, -⟩ := advance_of_playing hm hn
  · rw [heq, helapsed, h.duration]
  · simp [h.looping] at hl
  · simp [h.looping] at hl

/-- Brought up to now, a playhead shows the time it has reached. -/
private theorem Accounts.settle (h : Accounts d r p) (hd : 0 < d)
    (hn : Measure.isFinite now = true) (hw : p.mode = .playing → r.wall ≤ now) :
    Loops d (p.settle now) ∧ ModEq d (p.settle now).time (p.reached now) := by
  rw [Playhead.settle]
  split_ifs with hm
  · rw [h.advance_eq hm hn (hw hm)]
    obtain ⟨h0, hle⟩ := wrap_mem hd (p.reached now)
    exact ⟨⟨h.looping, h.duration, h0, hle⟩, wrap_modEq _ _⟩
  · rw [Playhead.reached, if_neg hm]
    exact ⟨h.toLoops, AddCommGroup.modEq_rfl⟩

private theorem accounts_pause (h : Accounts d r p) (hd : 0 < d)
    (hn : Measure.isFinite now = true) (hw : p.mode = .playing → r.wall ≤ now) :
    Accounts d (r.moveOn p now) (p.pause now) := by
  unfold pause
  split
  · next hm =>
    obtain ⟨hloops, ht⟩ := h.settle hd hn hw
    rw [Playhead.settle, if_pos hm] at hloops ht
    have hstopped : Loops d { p.advance now with mode := .stopped } :=
      ⟨hloops.looping, hloops.duration, hloops.time_nonneg, hloops.time_le⟩
    exact hstopped.accounts_of_not_playing nofun (ht.trans (h.reached_moveOn now))
  · exact (h.moveOn hw).resuming false
  · exact h.moveOn hw

private theorem accounts_setDuration (h : Accounts d r p) (hd : 0 < d)
    (hn : Measure.isFinite now = true) (hw : p.mode = .playing → r.wall ≤ now) :
    Accounts d (r.moveOn p now) (p.setDuration d now) := by
  unfold setDuration
  split
  · obtain ⟨hloops, ht⟩ := h.settle hd hn hw
    have htime := clamp_of_loops hloops
    have hsame : Loops d { p.settle now with
        duration := d, time := Number.clamp (p.settle now).time 0 d } := by
      rw [htime]
      exact ⟨hloops.looping, rfl, hloops.time_nonneg, hloops.time_le⟩
    refine hsame.accounts_anchor hn rfl ?_
    rw [htime]
    exact ht.trans (h.reached_moveOn now)
  · exact h.moveOn hw

private theorem accounts_beginScrub (h : Accounts d r p) (hd : 0 < d)
    (hn : Measure.isFinite now = true) (hw : p.mode = .playing → r.wall ≤ now) :
    Accounts d (r.moveOn p now) (p.beginScrub now) := by
  unfold beginScrub
  split
  · exact h.moveOn hw
  · obtain ⟨hloops, ht⟩ := h.settle hd hn hw
    have hheld : Loops d { p.settle now with
        resumes := (p.settle now).mode = .playing, mode := .scrubbing } :=
      ⟨hloops.looping, hloops.duration, hloops.time_nonneg, hloops.time_le⟩
    exact hheld.accounts_of_not_playing nofun (ht.trans (h.reached_moveOn now))

private theorem accounts_advance (h : Accounts d r p) (hd : 0 < d)
    (hn : Measure.isFinite now = true) (hw : p.mode = .playing → r.wall ≤ now) :
    Accounts d (r.moveOn p now) (p.advance now) := by
  by_cases hm : p.mode = .playing
  · have hstay := h.moveOn hw
    rw [h.advance_eq hm hn (hw hm)]
    obtain ⟨h0, hle⟩ := wrap_mem hd (p.reached now)
    refine ⟨⟨h.looping, h.duration, h0, hle⟩, hstay.anchored, ?_⟩
    -- the anchor stays, so the time reached does not depend on the time shown
    have hreached := hstay.reached
    unfold Playhead.reached at hreached ⊢
    rwa [if_pos hm] at hreached ⊢
  · rw [advance_of_still fun h => hm h.1]
    exact h.moveOn hw

/-- Whatever is done, the record goes on to account for the time. -/
private theorem accounts_act (h : Accounts d r p) (hd : 0 < d) {action : Transport α}
    (hkeeps : action.KeepsLoop d) (hnow : action.wall? = some now)
    (hw : p.mode = .playing → r.wall ≤ now) :
    Accounts d (r.after p action) (p.act action) ∧ (r.after p action).wall = now := by
  obtain ⟨⟨now', hnow', hn⟩, hsame⟩ := hkeeps
  obtain rfl := Option.some.inj (hnow.symm.trans hnow')
  cases action with
  | setLoop looping => exact nomatch hnow
  | scrubTo t wall =>
    obtain rfl := Option.some.inj hnow
    refine ⟨accounts_scrubTo h hd t hn hw, ?_⟩
    simp only [PlayRecord.after, Transport.wall?]
    split <;> rfl
  | setDuration secs wall =>
    obtain rfl := Option.some.inj hnow
    obtain rfl := hsame secs wall rfl
    exact ⟨accounts_setDuration h hd hn hw, rfl⟩
  | toggle wall =>
    obtain rfl := Option.some.inj hnow
    refine ⟨?_, rfl⟩
    simp only [act, toggle]
    split
    · exact accounts_pause h hd hn hw
    · exact accounts_play h hn hw
  | play wall =>
    obtain rfl := Option.some.inj hnow
    exact ⟨accounts_play h hn hw, rfl⟩
  | pause wall =>
    obtain rfl := Option.some.inj hnow
    exact ⟨accounts_pause h hd hn hw, rfl⟩
  | beginScrub wall =>
    obtain rfl := Option.some.inj hnow
    exact ⟨accounts_beginScrub h hd hn hw, rfl⟩
  | endScrub wall =>
    obtain rfl := Option.some.inj hnow
    exact ⟨accounts_endScrub h hn hw, rfl⟩
  | advance wall =>
    obtain rfl := Option.some.inj hnow
    exact ⟨accounts_advance h hd hn hw, rfl⟩

/-- The record accounts for the time all through a run. What is still to come is not before it. -/
private theorem accounts_run (h : Accounts d r p) (hd : 0 < d) {actions rest : List (Transport α)}
    (hrun : LoopRun d (actions ++ rest))
    (hw : p.mode = .playing → ∀ now ∈ (actions ++ rest).filterMap Transport.wall?, r.wall ≤ now) :
    Accounts d (r.ofRun p actions) (actions.foldl act p) ∧
      ((actions.foldl act p).mode = .playing →
        ∀ now ∈ rest.filterMap Transport.wall?, (r.ofRun p actions).wall ≤ now) := by
  induction actions generalizing p r with
  | nil => exact ⟨h, hw⟩
  | cons action actions ih =>
    obtain ⟨hkeeps, hordered⟩ := hrun
    rw [List.cons_append, List.forall_mem_cons] at hkeeps
    obtain ⟨now, hnow, -⟩ := hkeeps.1.1
    rw [List.cons_append, List.filterMap_cons_some hnow] at hordered hw
    obtain ⟨hfirst, hordered⟩ := List.pairwise_cons.1 hordered
    obtain ⟨hnext, hwall⟩ :=
      accounts_act h hd hkeeps.1 hnow fun hm => hw hm now List.mem_cons_self
    exact ih hnext ⟨hkeeps.2, hordered⟩ fun _ later hlater => hwall ▸ hfirst later hlater

/-- Moved on, paused or held, a playhead that plays shows the time it has reached. -/
private theorem Accounts.time_act (h : Accounts d r p) (hm : p.mode = .playing)
    (hn : Measure.isFinite now = true) (hw : r.wall ≤ now) {action : Transport α}
    (haction : action ∈ [.advance now, .pause now, .toggle now, .beginScrub now]) :
    (p.act action).time = Measure.wrap (p.reached now) d := by
  have hadvance : (p.advance now).time = Measure.wrap (p.reached now) d := by
    rw [h.advance_eq hm hn hw]
  simp only [List.mem_cons, List.not_mem_nil, or_false] at haction
  rcases haction with rfl | rfl | rfl | rfl
  · exact hadvance
  · simpa [act, pause, hm] using hadvance
  · simpa [act, toggle, pause, hm] using hadvance
  · simpa [act, beginScrub, Playhead.settle, hm] using hadvance

/-- Whenever a looping playhead that plays is moved on, paused or held, its time is where its last
jump went plus the time on the wall spent playing since then, modulo its duration. -/
theorem time_eq_position_add_played (hd : usableDuration d) {actions : List (Transport α)}
    {action : Transport α} (hrun : LoopRun d (actions ++ [action]))
    (hmode : (actions.foldl act (new d)).mode = .playing)
    (haction : action ∈ [.advance now, .pause now, .toggle now, .beginScrub now]) :
    let r := PlayRecord.start.ofRun (new d) (actions ++ [action])
    ((actions ++ [action]).foldl act (new d)).time = Measure.wrap (r.position + r.played) d := by
  have hpos : 0 < d := (usableDuration_iff.1 hd).2
  obtain ⟨haccounts, hwall⟩ := accounts_run (accounts_new hd) hpos hrun nofun
  have hnow : action.wall? = some now := by
    simp only [List.mem_cons, List.not_mem_nil, or_false] at haction
    rcases haction with rfl | rfl | rfl | rfl <;> rfl
  have hkeeps : action.KeepsLoop d := hrun.keeps action (List.mem_append_right _ List.mem_cons_self)
  obtain ⟨now', hnow', hn⟩ := hkeeps.1
  obtain rfl := Option.some.inj (hnow.symm.trans hnow')
  have hw := hwall hmode now (by simp [hnow])
  have hrecord : (PlayRecord.start.ofRun (new d) actions).after (actions.foldl act (new d)) action =
      (PlayRecord.start.ofRun (new d) actions).moveOn (actions.foldl act (new d)) now := by
    simp only [List.mem_cons, List.not_mem_nil, or_false] at haction
    rcases haction with rfl | rfl | rfl | rfl <;> rfl
  intro r
  have hr : r = (PlayRecord.start.ofRun (new d) actions).moveOn (actions.foldl act (new d)) now :=
    (PlayRecord.ofRun_append _ _ _ _).trans hrecord
  rw [List.foldl_append, List.foldl_cons, List.foldl_nil, haccounts.time_act hmode hn hw haction,
    hr]
  exact wrap_eq_of_modEq hpos (haccounts.reached_moveOn now)

end

/-- A loop of ten seconds that plays, and an edit that keeps its duration. A gesture holds it and
jumps to nine, and two more seconds of playing end at one. -/
theorem time_after_gesture :
    let before : List (Transport ℚ) :=
      [.play 1, .setDuration 10 2, .beginScrub 3, .scrubTo 9 4, .endScrub 6]
    let actions := before ++ [Transport.advance 8]
    LoopRun 10 actions ∧ (before.foldl act (new 10)).mode = .playing ∧
      PlayRecord.start.ofRun (new 10) actions = ⟨9, 2, 8⟩ ∧
      (actions.foldl act (new 10)).time = 1 := by
  intro before actions
  have hrun : LoopRun 10 actions := by
    constructor
    · simp [actions, before, Transport.KeepsLoop, Transport.wall?, Measure.isFinite]
    · have hwalls : actions.filterMap Transport.wall? = [1, 2, 3, 4, 6, 8] := rfl
      rw [hwalls]
      norm_num
  have hmode : (before.foldl act (new 10)).mode = .playing := by decide +kernel
  have htime := time_eq_position_add_played (by decide +kernel) hrun hmode List.mem_cons_self
  exact ⟨hrun, hmode, by decide +kernel, htime.trans (by decide +kernel)⟩

end Playhead

end MotionTemplate
