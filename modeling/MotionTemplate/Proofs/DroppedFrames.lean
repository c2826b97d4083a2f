import MotionTemplate.Proofs.Double.Monotone
import MotionTemplate.Proofs.PlayheadRange

/-! Dropped frames. A tick leaves the anchor of a playhead alone, and the time of the next tick is
computed from that. So it makes no difference which ticks came before, unless one of them has ended
a single run that a later one would not: then time went back. -/
namespace MotionTemplate.Playhead
open Number

variable {p : Playhead Float} {t now : Float}

/-- While a playhead plays, a tick does not look at the time of the one before. -/
private theorem advance_setTime (hm : p.mode = .playing) (hn : now.isFinite) (time : Float) :
    ({ p with time }).advance now = p.advance now := by
  simp only [advance, hm, Measure.isFinite_float, hn]
  rfl

/-- In the course of time the sum with the anchor does not become less. -/
theorem Bounded.rawTime_mono (h : p.Bounded) (ht : t ≤ now) (hn : now.isFinite)
    (ha : p.anchorTime.isNaN = false) : p.rawTime t ≤ p.rawTime now := by
  have ha0 : 0 ≤ p.anchorTime := nonneg_of_not_neg ha h.anchorTime
  have hsum (x : Float) : (p.anchorTime + atLeastZero (x - p.anchorWall)).isNaN = false :=
    (nonneg_iff.1 (add_nonneg ha0 (atLeastZero_nonneg _))).1
  exact add_le_add_of_le (atLeastZero_sub_le ht hn p.anchorWall) (hsum t) (hsum now)

/-- A single run that has come to its end has come to it later as well. -/
private theorem ended_later (h : p.Bounded) (ht : t ≤ now) (hn : now.isFinite)
    (hend : p.duration ≤ p.rawTime t) : p.duration ≤ p.rawTime now := by
  have ha : p.anchorTime.isNaN = false := by
    cases ha : p.anchorTime.isNaN with
    | false => rfl
    | true =>
      have hnan : (p.rawTime t).isNaN := isNaN_add_left ha _
      exact absurd hnan (ne_true_of_eq_false (le_iff.1 hend).2.1)
  exact Number.le_trans hend (h.rawTime_mono ht hn ha)

/-- The tick before may be dropped: in a loop always, in a single run if it was not later. -/
private theorem advance_advance (h : p.Bounded) (hn : now.isFinite)
    (ht : p.looping = true ∨ t ≤ now) : (p.advance t).advance now = p.advance now := by
  obtain ⟨-, heq⟩ | ⟨hm, -, -, heq⟩ | ⟨hm, hl, hend, heq⟩ | ⟨hm, -, -, heq⟩ := advance_cases p t
  · rw [heq]
  · rw [heq, advance_setTime hm hn]
  · -- the run is over, and it would be at the later tick too
    have hlater : p.duration ≤ p.rawTime now :=
      ended_later h (ht.resolve_left (by simp [hl])) hn hend
    have hover : p.advance now = { p with time := p.duration, mode := .stopped } := by
      simp [advance, hm, hn, hl, hlater]
    rw [heq, hover]
    rfl
  · rw [heq, advance_setTime hm hn]

/-- What a run of ticks before a tick may be: anything in a loop, and in order in a single run. -/
private theorem advance_ticks (h : p.Bounded) (hn : now.isFinite) (ticks : List Float)
    (ht : p.looping = true ∨ (ticks ++ [now]).Pairwise (· ≤ ·)) :
    (ticks.foldl advance p).advance now = p.advance now := by
  induction ticks generalizing p with
  | nil => rfl
  | cons t rest ih =>
    have hrest : (p.advance t).looping = true ∨ (rest ++ [now]).Pairwise (· ≤ ·) := by
      rw [looping_advance]
      exact ht.imp_right List.Pairwise.of_cons
    have hfirst : p.looping = true ∨ t ≤ now :=
      ht.imp_right fun hp => List.rel_of_pairwise_cons hp (by simp)
    calc ((t :: rest).foldl advance p).advance now
      _ = (p.advance t).advance now := ih (h.advance t) hrest
      _ = p.advance now := advance_advance h hn hfirst

/-- Dropped frames change nothing: after any ticks a tick leaves a playhead in the state that it
leaves it in alone. A loop may have met any ticks, also undefined ones, and in any order; a single
run those in the order of time. -/
theorem dropped_frames_change_nothing (duration : Float) (looping : Bool)
    (actions : List (Transport Float)) (ticks : List Float) {now : Float} (hn : now.isFinite) :
    let p := ((Playhead.new duration).setLoop looping).run actions
    p.looping = true ∨ (ticks ++ [now]).IsChain (· ≤ ·) →
      (ticks.foldl advance p).advance now = p.advance now := by
  intro p ht
  have hbounded : p.Bounded := (bounded_new duration looping).run actions
  have htrans : IsTrans Float (· ≤ ·) := ⟨fun _ _ _ => Number.le_trans⟩
  exact advance_ticks hbounded hn ticks (ht.imp_right List.isChain_iff_pairwise.1)

/-- A loop that met an undefined tick, one in its second pass and one from before its start, and a
single run that has already ended. -/
theorem dropped_frames_of_ten_seconds :
    let p := ((Playhead.new 10.0).setLoop true).run [.play 0.0]
    let q := ((Playhead.new 10.0).setLoop false).run [.play 0.0]
    (p.looping = true ∧
      ([0.0 / 0.0, 15.0, -3.0].foldl advance p).advance 4.0 = p.advance 4.0 ∧
      (p.advance 4.0).time = 4.0) ∧
    (([3.0, 12.0] ++ [20.0] : List Float).IsChain (· ≤ ·) ∧
      ([3.0, 12.0].foldl advance q).advance 20.0 = q.advance 20.0 ∧
      (q.advance 20.0).mode = .stopped) := by
  intro p q
  have hloop : p.looping = true := by decide +kernel
  have hchain : ([3.0, 12.0] ++ [20.0] : List Float).IsChain (· ≤ ·) := by decide +kernel
  have hp := dropped_frames_change_nothing 10.0 true [.play 0.0] [0.0 / 0.0, 15.0, -3.0]
    (by decide : (4.0 : Float).isFinite) (.inl hloop)
  have hq := dropped_frames_change_nothing 10.0 false [.play 0.0] [3.0, 12.0]
    (by decide : (20.0 : Float).isFinite) (.inr hchain)
  exact ⟨⟨hloop, hp, by decide +kernel⟩, hchain, hq, by decide +kernel⟩

end MotionTemplate.Playhead
