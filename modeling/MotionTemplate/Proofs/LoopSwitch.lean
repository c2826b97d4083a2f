import MotionTemplate.Proofs.PlayheadRange

/-! Switching the loop of a playhead while it plays. As long as playback has not come around since
its anchor was set, the time is the same in a loop and in a single run. Once it has, a single run
that takes the place of the loop is over. -/
namespace MotionTemplate.Playhead
open Number

/-- A looping playhead whose time since the anchor goes beyond its end, so that it has started again
from the top. -/
def CameAround (p : Playhead Float) (now : Float) : Prop :=
  p.looping = true ∧ p.duration ≤ p.rawTime now

variable {p : Playhead Float} {now : Float}

/-- A playhead that a tick left playing, short of its end. -/
private structure Ticked (p : Playhead Float) (now : Float) : Prop extends Bounded p where
  finite : now.isFinite
  mode : p.mode = .playing
  short : p.time < p.duration
  /-- What the tick made the time of a loop. -/
  looped : p.looping = true → p.time = Number.wrap (p.rawTime now) p.duration
  /-- What the tick made the time of a single run. -/
  single : p.looping = false → ¬ p.duration ≤ p.rawTime now ∧ p.time = p.rawTime now

private theorem ticked_advance (h : p.Bounded) (hn : now.isFinite)
    (hm : (p.advance now).mode = .playing)
    (hlt : (p.advance now).time < (p.advance now).duration) : (p.advance now).Ticked now := by
  have hnext := h.advance now
  obtain ⟨hl, heq⟩ | ⟨-, -, heq⟩ | ⟨hl, hle, heq⟩ := advance_of_playing (playing_of_advance hm) hn
  · rw [heq] at hnext hm hlt ⊢
    exact ⟨hnext, hn, hm, hlt, fun _ => rfl, fun hs => by simp [hl] at hs⟩
  · rw [heq] at hm
    exact nomatch hm
  · rw [heq] at hnext hm hlt ⊢
    exact ⟨hnext, hn, hm, hlt, fun hs => by simp [hl] at hs, fun _ => ⟨hle, rfl⟩⟩

private theorem Ticked.rawTime_nonneg (h : p.Ticked now) : 0 ≤ p.rawTime now := by
  refine nonneg_of_not_neg ?_ (h.toBounded.rawTime now)
  cases hl : p.looping with
  | true =>
    -- an infinite or undefined sum would have left the time undefined
    have hfinite : (p.rawTime now).isFinite := by
      apply Decidable.byContradiction
      intro hf
      have hnan : p.time.isNaN := h.looped hl ▸ isNaN_wrap (eq_false_of_ne_true hf)
      rw [(lt_iff.1 h.short).1] at hnan
      exact Bool.false_ne_true hnan
    exact (isFinite_iff.1 hfinite).1
  | false => exact (h.single hl).2 ▸ (lt_iff.1 h.short).1

/-- Short of the end, a loop and a single run have the same time. -/
private theorem Ticked.time_eq_rawTime (h : p.Ticked now) (hle : ¬ p.duration ≤ p.rawTime now) :
    p.time = p.rawTime now ∧ Number.wrap (p.rawTime now) p.duration = p.time := by
  have h0 := h.rawTime_nonneg
  obtain ⟨hdf, -⟩ := usableDuration_iff.1 h.duration
  have hlt : p.rawTime now < p.duration :=
    (lt_or_le (nonneg_iff.1 h0).1 (isFinite_iff.1 hdf).1).resolve_right hle
  have hwrap := wrap_of_lt h0 hdf hlt
  cases hl : p.looping with
  | true => exact ⟨(h.looped hl).trans hwrap, (h.looped hl).symm⟩
  | false => exact ⟨(h.single hl).2, hwrap.trans (h.single hl).2.symm⟩

/-- A loop that takes the place of a single run, or a single run that takes the place of a loop in
its first pass, stays where it is. -/
private theorem Ticked.advance_setLoop (h : p.Ticked now) {b : Bool}
    (hb : ¬ (b = false ∧ p.CameAround now)) : (p.setLoop b).advance now = p.setLoop b := by
  have hm : (p.setLoop b).mode = .playing := h.mode
  obtain ⟨-, heq⟩ | ⟨hl, hle, -⟩ | ⟨-, hle, heq⟩ := advance_of_playing hm h.finite
  · have htime : Measure.wrap ((p.setLoop b).rawTime now) (p.setLoop b).duration = p.time := by
      cases hp : p.looping with
      | true => exact (h.looped hp).symm
      | false => exact (h.time_eq_rawTime (h.single hp).1).2
    rw [heq, htime]
    rfl
  · -- a single run would have stopped at the tick, so this is a loop
    cases hp : p.looping with
    | true => exact absurd ⟨hl, hp, hle⟩ hb
    | false => exact absurd hle (h.single hp).1
  · have htime : (p.setLoop b).rawTime now = p.time := (h.time_eq_rawTime hle).1.symm
    rw [heq, htime]
    rfl

private theorem Ticked.advance_cameAround (h : p.Ticked now) (hc : p.CameAround now) :
    (p.setLoop false).advance now =
      { p with looping := false, time := p.duration, mode := .stopped } := by
  have hm : (p.setLoop false).mode = .playing := h.mode
  obtain ⟨hl, -⟩ | ⟨-, -, heq⟩ | ⟨-, hle, -⟩ := advance_of_playing hm h.finite
  · exact nomatch hl
  · exact heq
  · exact absurd hc.2 hle

/-- A playhead that plays on after a tick stays where it is when its loop is switched on or off and
the tick is repeated, exactly unless a loop that has come around is switched off. That one jumps to
the end and stops. -/
theorem loop_switch_keeps_time_iff (duration : Float) (looping : Bool)
    (actions : List (Transport Float)) {now : Float} (hn : now.isFinite) (b : Bool) :
    let p := ((Playhead.new duration).setLoop looping).run (actions ++ [.advance now])
    let q := (p.setLoop b).advance now
    p.mode = .playing → p.time < p.duration →
      (q.time = p.time ∧ q.mode = .playing ↔ ¬ (b = false ∧ p.CameAround now)) ∧
      (¬ (b = false ∧ p.CameAround now) → q = p.setLoop b) ∧
      (b = false → p.CameAround now →
        q = { p with looping := false, time := p.duration, mode := .stopped }) := by
  intro p q hmode hshort
  have hbefore := (bounded_new duration looping).run actions
  have hp : p = (((Playhead.new duration).setLoop looping).run actions).advance now :=
    List.foldl_append
  rw [hp] at hmode hshort
  have hticked : p.Ticked now := hp ▸ ticked_advance hbefore hn hmode hshort
  have hjump : b = false → p.CameAround now →
      q = { p with looping := false, time := p.duration, mode := .stopped } := by
    rintro rfl hc
    exact hticked.advance_cameAround hc
  refine ⟨⟨?_, fun hb => ?_⟩, hticked.advance_setLoop, hjump⟩
  · rintro ⟨-, hplaying⟩ ⟨hb, hc⟩
    rw [hjump hb hc] at hplaying
    exact nomatch hplaying
  · have hq : q = p.setLoop b := hticked.advance_setLoop hb
    rw [hq]
    exact ⟨rfl, hticked.mode⟩

/-- In its first pass a loop of ten seconds becomes a single run without a jump. -/
theorem first_pass_plays_on :
    let p := ((Playhead.new 10.0).setLoop true).run ([.play 0.0] ++ [.advance 4.0])
    p.mode = .playing ∧ p.time < p.duration ∧
      ((p.setLoop false).advance 4.0).time = 4.0 ∧
      ((p.setLoop false).advance 4.0).mode = .playing := by
  intro p
  have hmode : p.mode = .playing := by decide +kernel
  have hshort : p.time < p.duration := by decide +kernel
  have hfirst : ¬ (false = false ∧ p.CameAround 4.0) := by
    rintro ⟨-, -, hle⟩
    exact absurd hle (by decide +kernel)
  have hfinite : (4.0 : Float).isFinite := by decide
  obtain ⟨hiff, -⟩ := loop_switch_keeps_time_iff 10.0 true [.play 0.0] hfinite false hmode hshort
  obtain ⟨htime, hplaying⟩ := hiff.2 hfirst
  exact ⟨hmode, hshort, htime.trans (by decide +kernel), hplaying⟩

/-- In its second pass, five seconds in, it jumps to the end. -/
theorem second_pass_jumps :
    let p := ((Playhead.new 10.0).setLoop true).run ([.play 0.0] ++ [.advance 15.0])
    p.mode = .playing ∧ p.time = 5.0 ∧ p.time < p.duration ∧
      ¬ (((p.setLoop false).advance 15.0).time = p.time ∧
        ((p.setLoop false).advance 15.0).mode = .playing) := by
  decide +kernel

end MotionTemplate.Playhead
