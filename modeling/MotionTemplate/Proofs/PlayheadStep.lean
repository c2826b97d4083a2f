import MotionTemplate.Preview.Playhead

/-! What a playhead's operations can do. A tick does one of four things, an action in general one of
another four, and only a change of the duration changes the duration. -/
namespace MotionTemplate

section

variable {α : Type} [Measure α] [OfNat α 0] [LT α] [DecidableLT α]

/-- The duration after an action. An unusable one does not take the place of another. -/
def Transport.durationAfter (duration : α) : Transport α → α
  | .setDuration secs _ => if Playhead.usableDuration secs then secs else duration
  | _ => duration

namespace Playhead

theorem usableDuration_iff {secs : α} :
    usableDuration secs = true ↔ Measure.isFinite secs = true ∧ 0 < secs := by
  rw [usableDuration, Bool.and_eq_true, decide_eq_true_iff]

variable [Add α] [Sub α] [LE α] [DecidableLE α]

/-- A playhead that does not play, or is told no finite time, stays as it is. -/
theorem advance_of_still {p : Playhead α} {now : α}
    (h : ¬ (p.mode = .playing ∧ Measure.isFinite now = true)) : p.advance now = p := by
  refine if_pos ?_
  obtain hm | hn := Decidable.not_and_iff_not_or_not.1 h
  · exact .inl hm
  · exact .inr (by simp [hn])

/-- What a tick does to a playhead that plays, at a finite time on the wall. -/
theorem advance_of_playing {p : Playhead α} {now : α} (hm : p.mode = .playing)
    (hn : Measure.isFinite now = true) :
    (p.looping = true ∧
      p.advance now = { p with time := Measure.wrap (p.rawTime now) p.duration }) ∨
    (p.looping = false ∧ p.duration ≤ p.rawTime now ∧
      p.advance now = { p with time := p.duration, mode := .stopped }) ∨
    (p.looping = false ∧ ¬ p.duration ≤ p.rawTime now ∧
      p.advance now = { p with time := p.rawTime now }) := by
  have hadvance : p.advance now =
      if p.looping then { p with time := Measure.wrap (p.rawTime now) p.duration }
      else if p.duration ≤ p.rawTime now then { p with time := p.duration, mode := .stopped }
      else { p with time := p.rawTime now } := if_neg (by simp [hm, hn])
  rw [hadvance]
  cases hl : p.looping with
  | true => exact .inl ⟨rfl, rfl⟩
  | false =>
    by_cases hle : p.duration ≤ p.rawTime now
    · exact .inr (.inl ⟨rfl, hle, if_pos hle⟩)
    · exact .inr (.inr ⟨rfl, hle, if_neg hle⟩)

/-- What a tick does: nothing, unless the playhead plays and the time on the wall is finite. -/
theorem advance_cases (p : Playhead α) (now : α) :
    ((p.mode ≠ .playing ∨ Measure.isFinite now = false) ∧ p.advance now = p) ∨
    (p.mode = .playing ∧ Measure.isFinite now = true ∧ p.looping = true ∧
      p.advance now = { p with time := Measure.wrap (p.rawTime now) p.duration }) ∨
    (p.mode = .playing ∧ p.looping = false ∧ p.duration ≤ p.rawTime now ∧
      p.advance now = { p with time := p.duration, mode := .stopped }) ∨
    (p.mode = .playing ∧ p.looping = false ∧ ¬ p.duration ≤ p.rawTime now ∧
      p.advance now = { p with time := p.rawTime now }) := by
  by_cases h : p.mode = .playing ∧ Measure.isFinite now = true
  · obtain ⟨hm, hn⟩ := h
    obtain ⟨hl, heq⟩ | hsingle | hsingle := advance_of_playing hm hn
    · exact .inr (.inl ⟨hm, hn, hl, heq⟩)
    · exact .inr (.inr (.inl ⟨hm, hsingle⟩))
    · exact .inr (.inr (.inr ⟨hm, hsingle⟩))
  · have hor := (Decidable.not_and_iff_not_or_not.1 h).imp_right eq_false_of_ne_true
    exact .inl ⟨hor, advance_of_still h⟩

/-- No tick starts a playhead. -/
theorem playing_of_advance {p : Playhead α} {now : α} (hm : (p.advance now).mode = .playing) :
    p.mode = .playing := by
  apply Decidable.byContradiction
  intro hstill
  rw [advance_of_still fun h => hstill h.1] at hm
  exact hstill hm

/-- A playhead that does not play is up to date at any time. -/
theorem settle_eq_advance (p : Playhead α) (now : α) : p.settle now = p.advance now := by
  unfold settle
  split
  · rfl
  · next hm => exact (advance_of_still fun h => hm h.1).symm

theorem duration_advance (p : Playhead α) (now : α) : (p.advance now).duration = p.duration := by
  obtain ⟨-, heq⟩ | ⟨-, -, -, heq⟩ | ⟨-, -, -, heq⟩ | ⟨-, -, -, heq⟩ := advance_cases p now <;>
    rw [heq]

theorem looping_advance (p : Playhead α) (now : α) : (p.advance now).looping = p.looping := by
  obtain ⟨-, heq⟩ | ⟨-, -, -, heq⟩ | ⟨-, -, -, heq⟩ | ⟨-, -, -, heq⟩ := advance_cases p now <;>
    rw [heq]

omit [LT α] [DecidableLT α] [Add α] [Sub α] in
private theorem duration_play (p : Playhead α) (now : α) : (p.play now).duration = p.duration := by
  unfold play
  split <;> rfl

private theorem duration_pause (p : Playhead α) (now : α) :
    (p.pause now).duration = p.duration := by
  unfold pause
  split
  · exact duration_advance p now
  · rfl
  · rfl

/-- Only a usable duration takes the place of another. -/
theorem duration_act (p : Playhead α) (action : Transport α) :
    (p.act action).duration = action.durationAfter p.duration := by
  cases action with
  | play now => exact duration_play p now
  | pause now => exact duration_pause p now
  | advance now => exact duration_advance p now
  | setLoop looping => rfl
  | toggle now =>
    simp only [act, toggle, Transport.durationAfter]
    split
    · exact duration_pause p now
    · exact duration_play p now
  | scrubTo t now =>
    simp only [act, scrubTo, Transport.durationAfter]
    split <;> rfl
  | beginScrub now =>
    simp only [act, beginScrub, settle_eq_advance, Transport.durationAfter]
    split
    · rfl
    · exact duration_advance p now
  | endScrub now =>
    simp only [act, endScrub, Transport.durationAfter]
    split <;> rfl
  | setDuration secs now =>
    simp only [act, setDuration, Transport.durationAfter]
    split <;> rfl

theorem usableDuration_act {p : Playhead α} (h : usableDuration p.duration)
    (action : Transport α) : usableDuration (p.act action).duration := by
  rw [duration_act]
  cases action with
  | setDuration secs now =>
    simp only [Transport.durationAfter]
    split
    · assumption
    · exact h
  | _ => exact h

/-- What an action can make of a playhead: it changes what is to be done next, anchors the playhead
at its place or at one that it is sent to, brings it up to date, or gives it a new duration. -/
inductive Outcome (p : Playhead α) : Playhead α → Prop
  | told (mode : PlaybackMode) (looping resumes : Bool) : Outcome p { p with mode, looping, resumes }
  | placed (now time : α) (mode : PlaybackMode) (resumes : Bool)
      (h : time = p.time ∨ time = 0 ∨
        ∃ t, Measure.isFinite t = true ∧ time = Number.clamp t 0 p.duration) :
      Outcome p (({ p with time, mode, resumes }).anchor now)
  | moved (now : α) (mode : PlaybackMode) (resumes : Bool) :
      Outcome p { p.advance now with mode, resumes }
  | resized (now secs : α) (h : usableDuration secs = true) :
      Outcome p (({ p.advance now with
        duration := secs, time := Number.clamp (p.advance now).time 0 secs }).anchor now)

private theorem outcome_play (p : Playhead α) (now : α) : p.Outcome (p.play now) := by
  unfold play
  split
  · exact .told _ _ _
  · exact .told _ _ _
  · refine .placed now _ .playing p.resumes ?_
    split
    · exact .inr (.inl rfl)
    · exact .inl rfl

private theorem outcome_pause (p : Playhead α) (now : α) : p.Outcome (p.pause now) := by
  unfold pause
  split
  · exact .moved now _ _
  · exact .told _ _ _
  · exact .told _ _ _

theorem outcome_act (p : Playhead α) (action : Transport α) : p.Outcome (p.act action) := by
  cases action with
  | play now => exact outcome_play p now
  | pause now => exact outcome_pause p now
  | advance now => exact .moved now _ _
  | setLoop looping => exact .told _ _ _
  | toggle now =>
    rw [act, toggle]
    split
    · exact outcome_pause p now
    · exact outcome_play p now
  | scrubTo t now =>
    rw [act, scrubTo]
    split
    · next ht => exact .placed now _ _ _ (.inr (.inr ⟨t, ht, rfl⟩))
    · exact .told _ _ _
  | beginScrub now =>
    rw [act, beginScrub, settle_eq_advance]
    split
    · exact .told _ _ _
    · exact .moved now _ _
  | endScrub now =>
    rw [act, endScrub]
    split
    · exact .placed now _ _ _ (.inl rfl)
    · exact .told _ _ _
  | setDuration secs now =>
    rw [act, setDuration, settle_eq_advance]
    split
    · next hd => exact .resized now secs hd
    · exact .told _ _ _

end Playhead

end

/-- A new playhead has a usable duration, whatever it is given. -/
theorem Playhead.usableDuration_new (duration : Float) :
    usableDuration (Playhead.new duration).duration := by
  unfold Playhead.new
  simp only
  split
  · assumption
  · decide

end MotionTemplate
