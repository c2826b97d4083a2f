import MotionTemplate.Proofs.PlayheadRange

/-! Changes of the duration, made again and again at one time on the wall. The first one brings the
time up to date and anchors it there. Another one to the same duration then changes nothing, unless
the first has cut the time off: that leaves a playhead playing at its very end, and only the next
one takes it from there. -/
namespace MotionTemplate

/-- What a host sees of a playhead. -/
structure Playback where
  time : Float
  duration : Float
  mode : PlaybackMode
  looping : Bool
deriving DecidableEq

namespace Playhead
open Number

def playback (p : Playhead Float) : Playback := ⟨p.time, p.duration, p.mode, p.looping⟩

/-- A new duration that a playhead accepts cuts off its time while it plays. -/
def CutOff (p : Playhead Float) (secs now : Float) : Prop :=
  usableDuration secs ∧ now.isFinite ∧ (p.advance now).mode = .playing ∧
    secs ≤ (p.advance now).time

/-- A new duration that a playhead does not accept leaves it where it was last brought up to date,
and the one that it has does not. -/
def LeftBehind (p : Playhead Float) (first secs now : Float) : Prop :=
  usableDuration first ∧ usableDuration secs = false ∧ (p.advance now).playback ≠ p.playback

/-- Some durations, one after the other, at one time on the wall. -/
def setDurations (p : Playhead Float) (now : Float) (durations : List Float) : Playhead Float :=
  durations.foldl (fun p secs => p.setDuration secs now) p

/-- A playhead that is anchored where it is, at a time on the wall. -/
structure AnchoredAt (p : Playhead Float) (now : Float) : Prop where
  wall : p.anchorWall = now
  time : p.anchorTime = p.time
  plain : Plain p.time

variable {p : Playhead Float} {now first secs : Float}

theorem AnchoredAt.rawTime (h : p.AnchoredAt now) : p.rawTime now = p.time := by
  rw [Playhead.rawTime, h.wall, h.time, atLeastZero_sub_self, h.plain.add_zero]

/-- Short of its end an anchored playhead is up to date. -/
theorem AnchoredAt.advance_eq (h : p.AnchoredAt now) (hb : p.Bounded)
    (hshort : ¬ p.duration ≤ p.time) : p.advance now = p := by
  obtain ⟨-, heq⟩ | ⟨-, -, -, heq⟩ | ⟨-, -, hle, -⟩ | ⟨-, -, -, heq⟩ := advance_cases p now
  · exact heq
  · obtain ⟨hdf, -⟩ := usableDuration_iff.1 hb.duration
    have hwrap : Number.wrap p.time p.duration = p.time := by
      cases hn : p.time.isNaN with
      | true => exact eq_of_isNaN (isNaN_wrap (eq_false_of_ne_true (not_isFinite_of_isNaN hn))) hn
      | false =>
        have hlt := (lt_or_le hn (isFinite_iff.1 hdf).1).resolve_right hshort
        exact wrap_of_lt (nonneg_of_not_neg hn hb.time) hdf hlt
    rw [heq, h.rawTime, Measure.wrap_float, hwrap]
  · exact absurd (h.rawTime ▸ hle) hshort
  · rw [heq, h.rawTime]

/-- At its end it is not: a loop is at its start there, and a single run is over. -/
theorem AnchoredAt.playback_advance_ne (h : p.AnchoredAt now) (hb : p.Bounded)
    (hm : p.mode = .playing) (hn : now.isFinite) (hend : p.duration ≤ p.time) :
    (p.advance now).playback ≠ p.playback := by
  obtain ⟨hdf, hd0⟩ := usableDuration_iff.1 hb.duration
  obtain ⟨-, heq⟩ | ⟨-, -, heq⟩ | ⟨-, hle, -⟩ := advance_of_playing hm hn
  · have ht0 : 0 ≤ p.time := Number.le_trans (le_of_lt hd0) hend
    have htle : p.time ≤ p.duration :=
      (lt_or_le (isFinite_iff.1 hdf).1 (nonneg_iff.1 ht0).1).resolve_left hb.time_le
    obtain ⟨-, hlt⟩ := wrap_mem (isFinite_of_le ht0 htle hdf) ht0 hdf hd0
    rw [heq, h.rawTime]
    intro hsame
    have htime : Number.wrap p.time p.duration = p.time := congrArg Playback.time hsame
    exact not_le_of_lt (htime ▸ hlt) hend
  · rw [heq]
    intro hsame
    have hmode : PlaybackMode.stopped = p.mode := congrArg Playback.mode hsame
    exact nomatch hmode.trans hm
  · exact absurd (h.rawTime.symm ▸ hend) hle

theorem Bounded.setDuration (h : p.Bounded) (secs now : Float) :
    (p.setDuration secs now).Bounded :=
  h.act (.setDuration secs now)

theorem setDuration_of_unusable (h : usableDuration secs = false) :
    p.setDuration secs now = p := by
  simp [setDuration, h]

theorem setDuration_of_usable (h : usableDuration secs) :
    p.setDuration secs now = ({ p.advance now with
      duration := secs, time := clamp (p.advance now).time 0 secs }).anchor now := by
  rw [setDuration, if_pos h, settle_eq_advance]

theorem duration_setDuration (h : usableDuration secs) :
    (p.setDuration secs now).duration = secs := by
  rw [setDuration_of_usable h]
  rfl

/-- A tick that leaves a playhead playing leaves it short of its end, or at an undefined time. -/
private theorem short_of_playing (h : p.Bounded) (hn : now.isFinite)
    (hm : (p.advance now).mode = .playing) : ¬ p.duration ≤ (p.advance now).time := by
  obtain ⟨hdf, hd0⟩ := usableDuration_iff.1 h.duration
  obtain ⟨-, heq⟩ | ⟨-, -, heq⟩ | ⟨-, hle, heq⟩ := advance_of_playing (playing_of_advance hm) hn
  · rw [heq]
    change ¬ p.duration ≤ Number.wrap (p.rawTime now) p.duration
    cases hf : (p.rawTime now).isFinite with
    | true =>
      have h0 := nonneg_of_not_neg (isFinite_iff.1 hf).1 (h.rawTime now)
      exact not_le_of_lt (wrap_mem hf h0 hdf hd0).2
    | false =>
      intro hle
      exact ne_true_of_eq_false (le_iff.1 hle).2.1 (isNaN_wrap hf)
  · rw [heq] at hm
    exact nomatch hm
  · rw [heq]
    exact hle

private theorem plain_time_advance (h : p.Bounded) (hm : p.mode = .playing) (hn : now.isFinite) :
    Plain (p.advance now).time := by
  obtain ⟨hdf, hd0⟩ := usableDuration_iff.1 h.duration
  have hraw : Plain (p.rawTime now) := plain_add_atLeastZero h.anchorTime _
  obtain ⟨-, heq⟩ | ⟨-, -, heq⟩ | ⟨-, -, heq⟩ := advance_of_playing hm hn
  · rw [heq]
    exact plain_wrap (h.rawTime now) hraw hdf hd0
  · rw [heq]
    exact plain_of_pos hd0
  · rw [heq]
    exact hraw

private theorem plain_clamp {x : Float} (hx : Plain x) (hd : 0 < secs) :
    Plain (clamp x 0 secs) := by
  unfold clamp
  split
  · exact plain_of_hasSign rfl
  · split
    · exact plain_of_pos hd
    · exact hx

private theorem le_clamp_iff {x : Float} (hx : ¬ x < 0) (hd : secs.isNaN = false) :
    secs ≤ clamp x 0 secs ↔ secs ≤ x := by
  rw [clamp, if_neg hx]
  split
  · next hlt => exact iff_of_true (le_refl hd) (le_of_lt hlt)
  · exact Iff.rfl

/-- What plays on after a change of the duration is anchored there. -/
private theorem anchoredAt_setDuration (h : p.Bounded) (hd : usableDuration secs)
    (hn : now.isFinite) (hm : (p.advance now).mode = .playing) :
    (p.setDuration secs now).AnchoredAt now := by
  have hplain := plain_time_advance h (playing_of_advance hm) hn
  rw [setDuration_of_usable hd]
  exact ⟨if_pos hn, rfl, plain_clamp hplain (usableDuration_iff.1 hd).2⟩

/-- A change to the same duration brings the time up to date and anchors it. -/
theorem setDuration_self (h : p.Bounded) (hd : p.duration = secs) :
    p.setDuration secs now = (p.advance now).anchor now := by
  have ha := h.advance now
  have hsecs : (p.advance now).duration = secs := (p.duration_advance now).trans hd
  have hclamp : clamp (p.advance now).time 0 secs = (p.advance now).time :=
    clamp_of_not_lt ha.time (hsecs ▸ ha.time_le)
  rw [setDuration_of_usable (hd ▸ h.duration), hclamp, ← hsecs]

private theorem advance_setDuration_self (h : p.Bounded) (hd : p.duration = secs) :
    (p.setDuration secs now).advance now = p.setDuration secs now := by
  by_cases hrun : (p.advance now).mode = .playing ∧ now.isFinite
  · obtain ⟨hm, hn⟩ := hrun
    have hshort : ¬ (p.setDuration secs now).duration ≤ (p.setDuration secs now).time := by
      rw [setDuration_self h hd]
      change ¬ (p.advance now).duration ≤ (p.advance now).time
      rw [duration_advance]
      exact short_of_playing h hn hm
    have hanchored := anchoredAt_setDuration h (hd ▸ h.duration) hn hm
    exact hanchored.advance_eq (h.setDuration secs now) hshort
  · rw [setDuration_self h hd]
    exact advance_of_still hrun

/-- A change to the same duration before another one makes no difference. -/
theorem setDuration_setDuration (h : p.Bounded) (hfirst : p.duration = first)
    (hd : usableDuration secs) :
    (p.setDuration first now).setDuration secs now = p.setDuration secs now := by
  rw [setDuration_of_usable hd, advance_setDuration_self h hfirst, setDuration_self h hfirst,
    setDuration_of_usable hd]
  simp only [anchor]
  split <;> rfl

/-- Made twice, a change of the duration shows the same as made once, unless it cuts the time
off. -/
theorem playback_setDuration_again_iff (h : p.Bounded) (hd : usableDuration secs) (now : Float) :
    ((p.setDuration secs now).setDuration secs now).playback = (p.setDuration secs now).playback ↔
      ¬ p.CutOff secs now := by
  have hq : (p.setDuration secs now).Bounded := h.setDuration secs now
  have hqd : (p.setDuration secs now).duration = secs := duration_setDuration hd
  have hqm : (p.setDuration secs now).mode = (p.advance now).mode := by
    rw [setDuration_of_usable hd]
    rfl
  rw [setDuration_self hq hqd]
  change ((p.setDuration secs now).advance now).playback = _ ↔ _
  by_cases hrun : (p.advance now).mode = .playing ∧ now.isFinite
  · obtain ⟨hm, hn⟩ := hrun
    have hanchored := anchoredAt_setDuration h hd hn hm
    have hend : (p.setDuration secs now).duration ≤ (p.setDuration secs now).time ↔
        secs ≤ (p.advance now).time := by
      rw [hqd, setDuration_of_usable hd]
      exact le_clamp_iff (h.advance now).time (isFinite_iff.1 (usableDuration_iff.1 hd).1).1
    by_cases hle : secs ≤ (p.advance now).time
    · have hne := hanchored.playback_advance_ne hq (hqm.trans hm) hn (hend.2 hle)
      exact iff_of_false hne (not_not_intro ⟨hd, hn, hm, hle⟩)
    · rw [hanchored.advance_eq hq (mt hend.1 hle)]
      exact iff_of_true rfl fun hcut => hle hcut.2.2.2
  · rw [advance_of_still (hqm ▸ hrun)]
    exact iff_of_true rfl fun hcut => hrun ⟨hcut.2.2.1, hcut.2.1⟩

theorem setDurations_append (p : Playhead Float) (now : Float) (durations more : List Float) :
    p.setDurations now (durations ++ more) = (p.setDurations now durations).setDurations now more :=
  List.foldl_append

private theorem setDurations_unusable (h : usableDuration secs = false) (n : Nat) :
    p.setDurations now (List.replicate n secs) = p := by
  induction n with
  | zero => rfl
  | succ n ih =>
    rw [List.replicate_succ]
    change (p.setDuration secs now).setDurations now (List.replicate n secs) = p
    rw [setDuration_of_unusable h, ih]

/-- A duration that a playhead has may be set any number of times. -/
private theorem setDurations_self (h : p.Bounded) (hd : p.duration = secs) (n : Nat) :
    p.setDurations now (List.replicate (n + 1) secs) = p.setDuration secs now := by
  have husable : usableDuration secs := hd ▸ h.duration
  induction n generalizing p with
  | zero => rfl
  | succ n ih =>
    rw [List.replicate_succ]
    calc (p.setDuration secs now).setDurations now (List.replicate (n + 1) secs)
      _ = (p.setDuration secs now).setDuration secs now :=
        ih (h.setDuration secs now) (duration_setDuration husable)
      _ = p.setDuration secs now := setDuration_setDuration h hd husable

/-- The duration that a playhead has makes no difference before another one. -/
private theorem setDuration_setDurations (h : p.Bounded)
    (hfirst : usableDuration first → p.duration = first) (hd : usableDuration secs) (n : Nat) :
    (p.setDurations now (List.replicate n first)).setDuration secs now =
      p.setDuration secs now := by
  cases husable : usableDuration first with
  | false => rw [setDurations_unusable husable]
  | true =>
    cases n with
    | zero => rfl
    | succ n =>
      rw [setDurations_self h (hfirst husable), setDuration_setDuration h (hfirst husable) hd]

/-- After the duration that a playhead has, however often that is set, a new duration counts once if
it is set once, and twice if it is set more often. -/
private theorem setDurations_of_usable (h : p.Bounded)
    (hfirst : usableDuration first → p.duration = first) (hd : usableDuration secs) (n m : Nat) :
    p.setDurations now (List.replicate n first ++ List.replicate (m + 1) secs) =
      if m = 0 then p.setDuration secs now
      else (p.setDuration secs now).setDuration secs now := by
  rw [setDurations_append, List.replicate_succ]
  change ((p.setDurations now (List.replicate n first)).setDuration secs now).setDurations now
    (List.replicate m secs) = _
  rw [setDuration_setDurations h hfirst hd]
  cases m with
  | zero => rfl
  | succ m => exact setDurations_self (h.setDuration secs now) (duration_setDuration hd) m

/-- Before a duration that is not accepted the one that a playhead has counts once. -/
private theorem setDurations_of_unusable (h : p.Bounded)
    (hfirst : usableDuration first → p.duration = first) (hd : usableDuration secs = false)
    (n m : Nat) :
    p.setDurations now (List.replicate n first ++ List.replicate m secs) =
      if n = 0 then p else p.setDuration first now := by
  rw [setDurations_append, setDurations_unusable hd]
  cases husable : usableDuration first with
  | false => rw [setDurations_unusable husable, setDuration_of_unusable husable, ite_self]
  | true =>
    cases n with
    | zero => rfl
    | succ n => exact setDurations_self h (hfirst husable) n

private theorem playback_setDuration_first_iff (h : p.Bounded)
    (hfirst : usableDuration first → p.duration = first) (hd : usableDuration secs = false)
    (now : Float) :
    (p.setDuration first now).playback = p.playback ↔ ¬ p.LeftBehind first secs now := by
  cases husable : usableDuration first with
  | false =>
    rw [setDuration_of_unusable husable]
    exact iff_of_true rfl fun hb => nomatch husable.symm.trans hb.1
  | true =>
    rw [setDuration_self h (hfirst husable)]
    change (p.advance now).playback = p.playback ↔ _
    simp [LeftBehind, husable, hd]

/-- Two ways to set the duration that a playhead has and then a new one show the same, exactly
unless the new one cuts the time off and one of them sets it only once, or the new one is not
accepted and one of them does not set the old one before it. -/
theorem playback_setDurations_iff (h : p.Bounded)
    (hfirst : usableDuration first → p.duration = first) (n m n' m' : Nat) :
    (p.setDurations now (List.replicate n' first ++ List.replicate (m' + 1) secs)).playback =
        (p.setDurations now (List.replicate n first ++ List.replicate (m + 1) secs)).playback ↔
      (p.CutOff secs now → (m' = 0 ↔ m = 0)) ∧
        (p.LeftBehind first secs now → (n' = 0 ↔ n = 0)) := by
  cases hd : usableDuration secs with
  | true =>
    have hbehind : ¬ p.LeftBehind first secs now := fun hb => nomatch hd.symm.trans hb.2.1
    have hagain := playback_setDuration_again_iff h hd now
    rw [setDurations_of_usable h hfirst hd, setDurations_of_usable h hfirst hd]
    by_cases hm : m = 0 <;> by_cases hm' : m' = 0 <;>
      simp [hm, hm', hbehind, hagain, eq_comm (a := (p.setDuration secs now).playback)]
  | false =>
    have hcut : ¬ p.CutOff secs now := fun hc => nomatch hd.symm.trans hc.1
    have hfresh := playback_setDuration_first_iff h hfirst hd now
    rw [setDurations_of_unusable h hfirst hd, setDurations_of_unusable h hfirst hd]
    by_cases hn : n = 0 <;> by_cases hn' : n' = 0 <;>
      simp [hn, hn', hcut, hfresh, eq_comm (a := p.playback)]

end Playhead

end MotionTemplate
