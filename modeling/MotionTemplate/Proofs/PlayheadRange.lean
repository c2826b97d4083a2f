import MotionTemplate.Proofs.Double.Arithmetic
import MotionTemplate.Proofs.PlayheadStep

/-! The range of a playhead. A usable duration is never lost. The time stays between zero and the
duration until a looping playhead is told a time so far off that the sum with its anchor overflows;
an infinite time has no place in the loop, and from there on the time is undefined. -/
namespace MotionTemplate.Playhead
open Number

/-- A duration is usable, and a time lies between zero and it. -/
structure InRange (duration time : Float) : Prop where
  duration_finite : duration.isFinite
  duration_pos : 0 < duration
  time_finite : time.isFinite
  time_nonneg : 0 ≤ time
  time_le : time ≤ duration

/-- A looping playhead plays past the largest double: its anchor and the time since then have a sum
that is infinite. -/
def OverflowsAt (p : Playhead Float) (now : Float) : Prop :=
  p.mode = .playing ∧ p.looping = true ∧ now.isFinite ∧ ¬ (p.rawTime now).isFinite

/-- An action that moves the time on, at a time on the wall that overflows. -/
def Overflows (p : Playhead Float) : Transport Float → Prop
  | .advance now | .pause now | .toggle now | .beginScrub now => p.OverflowsAt now
  | .setDuration secs now => usableDuration secs ∧ p.OverflowsAt now
  | .play _ | .scrubTo _ _ | .endScrub _ | .setLoop _ => False

/-- A tick at a finite time that leaves a playhead playing leaves it short of its end. -/
def ShortOfEnd (p : Playhead Float) (action : Transport Float) : Prop :=
  ∀ now, action = .advance now → now.isFinite → (p.act action).mode = .playing →
    (p.act action).time < (p.act action).duration

/-- The range holds at every point of a run, and every tick stays short of the end. -/
def KeepsRange (p : Playhead Float) : List (Transport Float) → Prop
  | [] => InRange p.duration p.time
  | action :: rest =>
    InRange p.duration p.time ∧ p.ShortOfEnd action ∧ (p.act action).KeepsRange rest

/-- No action of a run overflows. -/
def NeverOverflows (p : Playhead Float) : List (Transport Float) → Prop
  | [] => True
  | action :: rest => ¬ p.Overflows action ∧ (p.act action).NeverOverflows rest

/-- The state after a run. -/
def run (p : Playhead Float) (actions : List (Transport Float)) : Playhead Float :=
  actions.foldl act p

private theorem inRange_zero {duration : Float} (hf : duration.isFinite) (h0 : 0 < duration) :
    InRange duration 0 :=
  ⟨hf, h0, by decide, by decide, le_of_lt h0⟩

/-- What keeps the range: a playhead in it has an anchor that is not below zero. -/
private def Anchored (p : Playhead Float) : Prop :=
  InRange p.duration p.time ∧ 0 ≤ p.anchorTime

variable {p : Playhead Float} {now : Float}

private theorem anchored_anchor (h : InRange p.duration p.time) : (p.anchor now).Anchored :=
  ⟨h, h.time_nonneg⟩

private theorem rawTime_nonneg (h : p.Anchored) : 0 ≤ p.rawTime now :=
  add_nonneg h.2 (atLeastZero_nonneg _)

/-- A tick that does not overflow keeps the range, and a playhead that plays on has not reached its
end. -/
private theorem advance_of_not_overflows (h : p.Anchored) (hov : ¬ p.OverflowsAt now) :
    (p.advance now).Anchored ∧ (p.mode = .playing → now.isFinite →
      (p.advance now).mode = .playing → (p.advance now).time < (p.advance now).duration) := by
  have hraw : 0 ≤ p.rawTime now := rawTime_nonneg h
  obtain ⟨⟨hdf, hd0, htf, ht0, hle⟩, ha⟩ := id h
  have hdn : p.duration.isNaN = false := (isFinite_iff.1 hdf).1
  obtain ⟨hoff, heq⟩ | ⟨hm, hn, hl, heq⟩ | ⟨hm, hl, hge, heq⟩ | ⟨hm, hl, hlt, heq⟩ :=
    advance_cases p now
  · rw [heq]
    refine ⟨h, fun hm hn => ?_⟩
    simp [hm, hn] at hoff
  · have hf : (p.rawTime now).isFinite :=
      Decidable.byContradiction fun hf => hov ⟨hm, hl, hn, hf⟩
    obtain ⟨hw0, hwlt⟩ := wrap_mem hf hraw hdf hd0
    have hwle := le_of_lt hwlt
    rw [heq]
    exact ⟨⟨⟨hdf, hd0, isFinite_of_le hw0 hwle hdf, hw0, hwle⟩, ha⟩, fun _ _ _ => hwlt⟩
  · rw [heq]
    exact ⟨⟨⟨hdf, hd0, hdf, le_of_lt hd0, le_refl hdn⟩, ha⟩, fun _ _ hp => nomatch hp⟩
  · have hrlt : p.rawTime now < p.duration :=
      (lt_or_le (nonneg_iff.1 hraw).1 hdn).resolve_right hlt
    have hrle := le_of_lt hrlt
    rw [heq]
    exact ⟨⟨⟨hdf, hd0, isFinite_of_le hraw hrle hdf, hraw, hrle⟩, ha⟩, fun _ _ _ => hrlt⟩

private theorem advance_of_overflows (hov : p.OverflowsAt now) : (p.advance now).time.isNaN := by
  obtain ⟨hm, hl, hn, hf⟩ := hov
  obtain ⟨-, heq⟩ | ⟨hl', -⟩ | ⟨hl', -⟩ := advance_of_playing hm hn
  · rw [heq]
    exact isNaN_wrap (eq_false_of_ne_true hf)
  · simp [hl] at hl'
  · simp [hl] at hl'

private theorem inRange_clamp {secs t : Float} (hd : usableDuration secs) (ht : t.isNaN = false) :
    InRange secs (clamp t 0 secs) := by
  obtain ⟨hf, h0⟩ := usableDuration_iff.1 hd
  obtain ⟨hc0, hcle⟩ := clamp_mem ht (le_of_lt h0)
  exact ⟨hf, h0, isFinite_of_le hc0 hcle hf, hc0, hcle⟩

private theorem anchored_play (h : p.Anchored) : (p.play now).Anchored := by
  unfold play
  split
  · exact h
  · exact h
  · refine @anchored_anchor { p with time := _ } now ?_
    split
    · exact inRange_zero h.1.duration_finite h.1.duration_pos
    · exact h.1

private theorem anchored_pause (h : p.Anchored) (hov : ¬ p.OverflowsAt now) :
    (p.pause now).Anchored := by
  unfold pause
  split
  · exact (advance_of_not_overflows h hov).1
  · exact h
  · exact h

private theorem anchored_settle (h : p.Anchored) (hov : ¬ p.OverflowsAt now) :
    (p.settle now).Anchored := by
  unfold settle
  split
  · exact (advance_of_not_overflows h hov).1
  · exact h

/-- What does not overflow keeps the range. -/
private theorem anchored_act (h : p.Anchored) {action : Transport Float}
    (hov : ¬ p.Overflows action) : (p.act action).Anchored := by
  cases action with
  | play now => exact anchored_play h
  | pause now => exact anchored_pause h hov
  | toggle now =>
    simp only [act, toggle]
    split
    · exact anchored_pause h hov
    · exact anchored_play h
  | scrubTo t now =>
    simp only [act, scrubTo]
    split
    · next hf =>
      have hd := usableDuration_iff.2 ⟨h.1.duration_finite, h.1.duration_pos⟩
      exact anchored_anchor (inRange_clamp hd (isFinite_iff.1 hf).1)
    · exact h
  | beginScrub now =>
    simp only [act, beginScrub]
    split
    · exact h
    · exact anchored_settle h hov
  | endScrub now =>
    simp only [act, endScrub]
    split
    · exact anchored_anchor h.1
    · exact h
  | advance now => exact (advance_of_not_overflows h hov).1
  | setDuration secs now =>
    simp only [act, setDuration]
    split
    · next hd =>
      have hs : (p.settle now).Anchored := anchored_settle h fun ho => hov ⟨hd, ho⟩
      exact anchored_anchor (inRange_clamp hd (isFinite_iff.1 hs.1.time_finite).1)
    · exact h
  | setLoop looping => exact h

/-- What overflows leaves the time undefined. -/
private theorem act_of_overflows {action : Transport Float} (hov : p.Overflows action) :
    (p.act action).time.isNaN := by
  cases action with
  | play | scrubTo | endScrub | setLoop => exact hov.elim
  | advance now => exact advance_of_overflows hov
  | pause now =>
    simp only [act, pause, hov.1]
    exact advance_of_overflows hov
  | toggle now =>
    simp only [act, toggle, pause, hov.1, if_true]
    exact advance_of_overflows hov
  | beginScrub now =>
    simp only [act, beginScrub, settle, hov.1, if_true]
    exact advance_of_overflows hov
  | setDuration secs now =>
    obtain ⟨hd, hov⟩ := hov
    have hn := advance_of_overflows hov
    simp only [act, setDuration, settle, hov.1, hd, if_true, anchor, clamp_of_isNaN hn]
    exact hn

private theorem shortOfEnd_of_not_overflows (h : p.Anchored) {action : Transport Float}
    (hov : ¬ p.Overflows action) : p.ShortOfEnd action := by
  rintro now rfl hn hm
  by_cases hp : p.mode = .playing
  · exact (advance_of_not_overflows h hov).2 hp hn hm
  · have hoff : p.act (.advance now) = p := advance_of_still fun h => hp h.1
    rw [hoff] at hm
    exact absurd hm hp

/-- A run that starts with its anchor in order keeps the range exactly as long as nothing
overflows. -/
private theorem keepsRange_iff (h : p.Anchored) (actions : List (Transport Float)) :
    p.KeepsRange actions ↔ p.NeverOverflows actions := by
  induction actions generalizing p with
  | nil => exact iff_of_true h.1 trivial
  | cons action rest ih =>
    by_cases hov : p.Overflows action
    · refine iff_of_false (fun hk => ?_) (fun hn => hn.1 hov)
      -- the state after the action is the first point of the rest of the run
      have hr : InRange (p.act action).duration (p.act action).time := by
        cases rest with
        | nil => exact hk.2.2
        | cons => exact hk.2.2.1
      exact not_isFinite_of_isNaN (act_of_overflows hov) hr.time_finite
    · have hrest := ih (anchored_act h hov)
      have hshort := shortOfEnd_of_not_overflows h hov
      exact ⟨fun hk => ⟨hov, hrest.1 hk.2.2⟩, fun hn => ⟨h.1, hshort, hrest.2 hn.2⟩⟩

private theorem usableDuration_run (h : usableDuration p.duration)
    (actions : List (Transport Float)) : usableDuration (p.run actions).duration := by
  induction actions generalizing p with
  | nil => exact h
  | cons action rest ih => exact ih (usableDuration_act h action)

/-- Whatever is done to a new playhead, its duration stays usable. It keeps its range all along
exactly when no action overflows. -/
theorem keeps_range_iff_never_overflows (duration : Float) (looping : Bool)
    (actions : List (Transport Float)) :
    let p := (Playhead.new duration).setLoop looping
    (p.run actions).duration.isFinite ∧ 0 < (p.run actions).duration ∧
      (p.KeepsRange actions ↔ p.NeverOverflows actions) := by
  intro p
  have hd : usableDuration p.duration := usableDuration_new duration
  obtain ⟨hf, h0⟩ := usableDuration_iff.1 hd
  obtain ⟨hrf, hr0⟩ := usableDuration_iff.1 (usableDuration_run hd actions)
  have ha : p.Anchored := ⟨inRange_zero hf h0, (by decide : (0 : Float) ≤ 0)⟩
  exact ⟨hrf, hr0, keepsRange_iff ha actions⟩

/-- Started long ago, a loop of ten seconds is lost far in the future. -/
theorem range_lost_far_from_anchor :
    ¬ ((Playhead.new 10.0).setLoop true).KeepsRange [.play (-1.7e308), .advance 1.7e308] := by
  rintro ⟨-, -, -, -, h⟩
  exact absurd h.time_finite (by decide +kernel)

/-- What is left of the range when an overflow is not ruled out: neither the time nor its anchor is
below zero, and the time is not beyond the duration, though both may be undefined. -/
structure Bounded (p : Playhead Float) : Prop where
  duration : usableDuration p.duration
  time : ¬ p.time < 0
  time_le : ¬ p.duration < p.time
  anchorTime : ¬ p.anchorTime < 0

theorem nonneg_of_not_neg {x : Float} (hn : x.isNaN = false) (h : ¬ x < 0) : 0 ≤ x :=
  (lt_or_le hn rfl).resolve_left h

theorem Bounded.rawTime (h : p.Bounded) (now : Float) : ¬ p.rawTime now < 0 := by
  rw [Playhead.rawTime]
  cases hn : p.anchorTime.isNaN with
  | true =>
    apply not_lt_of_isNaN
    exact isNaN_add_left hn _
  | false =>
    apply not_lt_of_le
    exact add_nonneg (nonneg_of_not_neg hn h.anchorTime) (atLeastZero_nonneg _)

private theorem Bounded.wrap (h : p.Bounded) (now : Float) :
    ¬ Number.wrap (p.rawTime now) p.duration < 0 ∧
      ¬ p.duration < Number.wrap (p.rawTime now) p.duration := by
  obtain ⟨hdf, hd0⟩ := usableDuration_iff.1 h.duration
  cases hf : (p.rawTime now).isFinite with
  | true =>
    have h0 := nonneg_of_not_neg (isFinite_iff.1 hf).1 (h.rawTime now)
    obtain ⟨hw0, hwlt⟩ := Number.wrap_mem hf h0 hdf hd0
    exact ⟨not_lt_of_le hw0, not_lt_of_le (le_of_lt hwlt)⟩
  | false => exact ⟨not_lt_of_isNaN (isNaN_wrap hf), not_lt_of_isNaN_right (isNaN_wrap hf)⟩

theorem Bounded.advance (h : p.Bounded) (now : Float) : (p.advance now).Bounded := by
  obtain ⟨hdf, hd0⟩ := usableDuration_iff.1 h.duration
  obtain ⟨-, heq⟩ | ⟨-, -, -, heq⟩ | ⟨-, -, -, heq⟩ | ⟨-, -, hle, heq⟩ := advance_cases p now
  · rw [heq]
    exact h
  · rw [heq]
    exact ⟨h.duration, (h.wrap now).1, (h.wrap now).2, h.anchorTime⟩
  · have hend : p.duration ≤ p.duration := le_refl (isFinite_iff.1 hdf).1
    rw [heq]
    exact ⟨h.duration, not_lt_of_le (le_of_lt hd0), not_lt_of_le hend, h.anchorTime⟩
  · rw [heq]
    exact ⟨h.duration, h.rawTime now, fun hlt => hle (le_of_lt hlt), h.anchorTime⟩

private theorem clamp_bounded {x secs : Float} (hd : usableDuration secs) :
    ¬ clamp x 0 secs < 0 ∧ ¬ secs < clamp x 0 secs := by
  cases hn : x.isNaN with
  | true =>
    rw [clamp_of_isNaN hn]
    exact ⟨not_lt_of_isNaN hn, not_lt_of_isNaN_right hn⟩
  | false =>
    obtain ⟨h0, hle⟩ := Number.clamp_mem hn (le_of_lt (usableDuration_iff.1 hd).2)
    exact ⟨not_lt_of_le h0, not_lt_of_le hle⟩

private theorem Bounded.outcome {q : Playhead Float} (h : p.Bounded) (ho : p.Outcome q) :
    q.Bounded := by
  cases ho with
  | told mode looping resumes => exact ⟨h.duration, h.time, h.time_le, h.anchorTime⟩
  | placed now time mode resumes htime =>
    have hbounds : ¬ time < 0 ∧ ¬ p.duration < time := by
      rcases htime with rfl | rfl | ⟨t, -, rfl⟩
      · exact ⟨h.time, h.time_le⟩
      · exact ⟨by decide, not_lt_of_le (le_of_lt (usableDuration_iff.1 h.duration).2)⟩
      · exact clamp_bounded h.duration
    exact ⟨h.duration, hbounds.1, hbounds.2, hbounds.1⟩
  | moved now mode resumes =>
    obtain ⟨hduration, htime, htimeLe, hanchor⟩ := h.advance now
    exact ⟨hduration, htime, htimeLe, hanchor⟩
  | resized now secs hd =>
    obtain ⟨h0, hle⟩ := clamp_bounded hd
    exact ⟨hd, h0, hle, h0⟩

theorem Bounded.act (h : p.Bounded) (action : Transport Float) : (p.act action).Bounded :=
  h.outcome (outcome_act p action)

theorem Bounded.run (h : p.Bounded) (actions : List (Transport Float)) :
    (p.run actions).Bounded := by
  induction actions generalizing p with
  | nil => exact h
  | cons action rest ih => exact ih (h.act action)

theorem bounded_new (duration : Float) (looping : Bool) :
    ((Playhead.new duration).setLoop looping).Bounded where
  duration := usableDuration_new duration
  time := (by decide : ¬ (0 : Float) < 0)
  time_le := not_lt_of_le (le_of_lt (usableDuration_iff.1 (usableDuration_new duration)).2)
  anchorTime := (by decide : ¬ (0 : Float) < 0)

end MotionTemplate.Playhead
