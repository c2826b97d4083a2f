import MotionTemplate.Proofs.Double.Monotone
import MotionTemplate.Render.Frame

/-! Animations go forward. Two clocks decide on the phase of a layer: the time since it appeared,
which does not become less, and the time until it leaves, which does not become more. So a layer
that has entered does not enter again, one that leaves does not come back, and within both phases it
gets on. -/
namespace MotionTemplate

open Number

namespace AnimationPhase

/-- A phase that comes no later than another, and within one phase no more progress. -/
def NotAfter : AnimationPhase Float → AnimationPhase Float → Prop
  | entering p, entering q => p ≤ q
  | entering _, _ => True
  | steady, entering _ => False
  | steady, _ => True
  | exiting p, exiting q => p ≤ q
  | exiting _, _ => False

end AnimationPhase

namespace Window

variable {w : Window Float} {s t duration : Float}

theorem isVisible_iff :
    w.isVisible t duration = true ↔ t.isFinite ∧ w.start ≤ t ∧ t ≤ w.finishAt duration := by
  rw [isVisible, Bool.and_eq_true, Bool.and_eq_true, decide_eq_true_iff, decide_eq_true_iff,
    Measure.isFinite_float, and_assoc]

/-- A layer that follows the duration is not treated apart: it does not end before it. -/
private theorem exitRemaining?_eq (w : Window Float) (t duration : Float) :
    w.exitRemaining? t duration =
      if w.finishAt duration < duration then w.remaining? t duration else none := by
  rw [exitRemaining?]
  cases hfinish : w.finish with
  | fixed secs =>
    have hat : w.finishAt duration = secs := by rw [finishAt, hfinish]
    rw [hat]
  | fullDuration =>
    have hat : w.finishAt duration = duration := by rw [finishAt, hfinish]
    rw [hat, if_neg (Number.lt_irrefl duration)]

theorem exitRemaining?_of_le (h : duration ≤ w.finishAt duration) :
    w.exitRemaining? t duration = none := by
  rw [exitRemaining?_eq, if_neg (not_lt_of_le h)]

/-- While a layer is visible, the time until it leaves runs down, and not below zero. -/
theorem exitRemaining?_runs_down (hst : s ≤ t) (hs : w.isVisible s duration = true)
    (ht : w.isVisible t duration = true) {r : Float}
    (hr : w.exitRemaining? s duration = some r) (hfinite : r.isFinite) :
    ∃ r', w.exitRemaining? t duration = some r' ∧ r'.isFinite ∧ 0 ≤ r' ∧ r' ≤ r := by
  obtain ⟨htf, -, htle⟩ := isVisible_iff.1 ht
  rw [exitRemaining?_eq, remaining?, if_pos hs] at hr
  rw [exitRemaining?_eq, remaining?, if_pos ht]
  split_ifs at hr ⊢ with hleaves
  obtain rfl := Option.some.inj hr
  have hend : (w.finishAt duration).isFinite := isFinite_of_sub_left hfinite
  have ht0 := sub_nonneg_of_le htle htf hend
  have hle := sub_le_sub_left_of_le hst (isFinite_iff.1 hfinite).1 (nonneg_iff.1 ht0).1
  exact ⟨_, rfl, isFinite_of_le ht0 hle hfinite, ht0, hle⟩

end Window

namespace AnimationSelector

variable {duration e e' : Float}

/-- The part of the way that is left behind when a time remains. -/
private theorem exitProgress_mono {r r' : Float} (hr' : 0 ≤ r') (h : r' ≤ r) (hr : r.isFinite)
    (hlt : r < duration) :
    clamp (1 - atLeastZero r / duration) 0 1 ≤ clamp (1 - atLeastZero r' / duration) 0 1 := by
  have hpos : 0 < duration := Number.lt_of_le_of_lt (Number.le_trans hr' h) hlt
  have hdiv := div_le_div_of_isFinite (atLeastZero_le_atLeastZero h)
    (isFinite_atLeastZero (isFinite_of_le hr' h hr)) (isFinite_atLeastZero hr) hpos
  have hone : (1 : Float).isFinite := by decide
  obtain ⟨hn', hn, -⟩ := le_iff.1 hdiv
  refine clamp_le_clamp ?_ (by decide)
  exact sub_le_sub_left_of_le hdiv (isNaN_sub_of_isFinite hone hn') (isNaN_sub_of_isFinite hone hn)

/-- As time passes and what remains runs down, a phase is followed by none that comes before it. -/
theorem phase_notAfter {o o' : Option Float} (h : e ≤ e') (he : e.isFinite) (he' : e'.isFinite)
    (hruns : ∀ r, o = some r → r.isFinite →
      ∃ r', o' = some r' ∧ r'.isFinite ∧ 0 ≤ r' ∧ r' ≤ r) :
    (phase duration e o).NotAfter (phase duration e' o') := by
  have hmono := atLeastZero_le_atLeastZero h
  simp only [phase, Measure.isFinite_float, he, he', if_true]
  by_cases henters' : atLeastZero e' < duration
  · -- What still enters had entered no further before.
    have henters : atLeastZero e < duration := Number.lt_of_le_of_lt hmono henters'
    have hpos : 0 < duration := Number.lt_of_le_of_lt (atLeastZero_nonneg e) henters
    rw [if_pos henters, if_pos henters']
    exact div_le_div_of_isFinite hmono (isFinite_atLeastZero he) (isFinite_atLeastZero he') hpos
  · rw [if_neg henters']
    by_cases henters : atLeastZero e < duration
    · rw [if_pos henters]
      split <;> trivial
    · rw [if_neg henters]
      cases hleaves : o.filter fun r => r.isFinite && r < duration with
      | none =>
        dsimp only
        split <;> trivial
      | some r =>
        obtain ⟨hr, hcond⟩ := Option.filter_eq_some_iff.1 hleaves
        rw [Bool.and_eq_true, decide_eq_true_iff] at hcond
        obtain ⟨r', hr', hfinite', hnonneg', hle⟩ := hruns r hr hcond.1
        have hcond' : (r'.isFinite && r' < duration) = true := by
          rw [Bool.and_eq_true, decide_eq_true_iff]
          exact ⟨hfinite', Number.lt_of_le_of_lt hle hcond.2⟩
        rw [hr', Option.filter_some, if_pos hcond']
        exact exitProgress_mono hnonneg' hle hcond.1 hcond.2

private theorem phase_none_ne_exiting (p : Float) : phase duration e none ≠ .exiting p := by
  simp only [phase, Option.filter_none]
  split_ifs <;> exact nofun

/-- Without an animation a layer stays in one phase; with one, its range decides on the duration. -/
private theorem phase_select (s : AnimationSelector Float) (spec : Option (AnimationSpec Float)) :
    (∀ e o, (s.select spec e o).phase = .steady) ∨
      ∃ duration, ∀ e o, (s.select spec e o).phase = phase duration e o := by
  simp only [select]
  cases spec.filter (·.kind ≠ .none) with
  | none => exact .inl fun _ _ => rfl
  | some spec => exact .inr ⟨_, fun _ _ => rfl⟩

end AnimationSelector

namespace Composition

/-- A frame of a composition shows one of its layers in this way. -/
structure Shows (c : Composition) (t scale : Float) (selector : AnimationSelector Float)
    (l : ResolvedLayer) (f : FrameLayer) : Prop where
  mem : f ∈ (c.frameAt t scale selector).layers
  shown : FrameLayer.ofLayer? c t scale selector l = some f

variable {c : Composition} {s t scale : Float} {selector : AnimationSelector Float}
  {l : ResolvedLayer}

private theorem exists_shows (scale : Float) (selector : AnimationSelector Float)
    (hl : l ∈ c.layers) (hv : l.window.isVisible t c.duration = true) :
    ∃ f, c.Shows t scale selector l f := by
  obtain ⟨f, hf⟩ :=
    Option.isSome_iff_exists.1 ((FrameLayer.isSome_ofLayer? c t scale selector l).trans hv)
  exact ⟨f, List.mem_filterMap.2 ⟨l, hl, hf⟩, hf⟩

/-- A layer is animated by the time since it appeared and, if it leaves, the time until then. -/
private theorem animation_of_shows {f : FrameLayer} (hf : c.Shows t scale selector l f) :
    f.animation = selector.select l.animation (t - l.window.start)
      (l.window.exitRemaining? t c.duration) := by
  obtain ⟨elapsed, helapsed, rfl⟩ := Option.map_eq_some_iff.1 hf.shown
  rw [Window.elapsed?] at helapsed
  split_ifs at helapsed
  obtain rfl := Option.some.inj helapsed
  rfl

private theorem not_exiting_of_le (hend : c.duration ≤ l.window.finishAt c.duration)
    {f : FrameLayer} (hf : c.Shows t scale selector l f) (p : Float) :
    f.animation.phase ≠ .exiting p := by
  rw [animation_of_shows hf, Window.exitRemaining?_of_le hend]
  obtain hsteady | ⟨duration, hphase⟩ := AnimationSelector.phase_select selector l.animation
  · rw [hsteady]
    exact nofun
  · rw [hphase]
    exact AnimationSelector.phase_none_ne_exiting p

/-- Whatever the range of the durations, and however short the window: at the later of two times at
which a layer is visible, it is shown in no earlier phase, and in the same one no less far. One that
stays to the end of the composition never leaves. -/
theorem phases_move_forward (c : Composition) (scale : Float) (selector : AnimationSelector Float)
    {l : ResolvedLayer} (hl : l ∈ c.layers) :
    (∀ s t, s ≤ t →
      l.window.isVisible s c.duration → (s - l.window.start).isFinite →
      l.window.isVisible t c.duration → (t - l.window.start).isFinite →
      ∃ f g, c.Shows s scale selector l f ∧ c.Shows t scale selector l g ∧
        f.animation.phase.NotAfter g.animation.phase) ∧
    (c.duration ≤ l.window.finishAt c.duration →
      ∀ t f, c.Shows t scale selector l f → ∀ p, f.animation.phase ≠ .exiting p) := by
  refine ⟨fun s t hst hs hsf ht htf => ?_, fun hend t f hf => not_exiting_of_le hend hf⟩
  obtain ⟨f, hf⟩ := exists_shows scale selector hl hs
  obtain ⟨g, hg⟩ := exists_shows scale selector hl ht
  refine ⟨f, g, hf, hg, ?_⟩
  rw [animation_of_shows hf, animation_of_shows hg]
  obtain hsteady | ⟨duration, hphase⟩ := AnimationSelector.phase_select selector l.animation
  · rw [hsteady, hsteady]
    trivial
  · rw [hphase, hphase]
    have helapsed : s - l.window.start ≤ t - l.window.start :=
      sub_le_sub_of_le hst (isFinite_iff.1 hsf).1 (isFinite_iff.1 htf).1
    exact AnimationSelector.phase_notAfter helapsed hsf htf fun r =>
      Window.exitRemaining?_runs_down hst hs ht

/-- A title that fades in after one second and is gone after four. -/
private def title : ResolvedLayer where
  id := "title"
  kind := .text
  window := ⟨1.0, .fixed 4.0⟩
  z := 0
  source := none
  text := some (.string "Hello")
  style := ∅
  transform := ∅
  animation := some ⟨.fade, 1.0⟩
  effects := []

private def titled : Composition := ⟨"clip", ⟨1080.0, 1920.0⟩, 30, 10.0, none, [title]⟩

/-- After half a second the title is half seen, and at a quarter second before its end it is on its
way out. -/
theorem title_moves_forward :
    ∃ f g, titled.Shows 1.5 1.0 .standard title f ∧ titled.Shows 3.75 1.0 .standard title g ∧
      f.animation.phase = .entering 0.5 ∧ g.animation.phase = .exiting 0.75 ∧
      f.animation.phase.NotAfter g.animation.phase := by
  have hmem : title ∈ titled.layers := List.mem_singleton.2 rfl
  obtain ⟨hforward, -⟩ := phases_move_forward titled 1.0 .standard hmem
  obtain ⟨f, g, hf, hg, hnotAfter⟩ := hforward 1.5 3.75 (by decide) (by decide +kernel)
    (by decide +kernel) (by decide +kernel) (by decide +kernel)
  refine ⟨f, g, hf, hg, ?_, ?_, hnotAfter⟩
  · rw [animation_of_shows hf]
    decide +kernel
  · rw [animation_of_shows hg]
    decide +kernel

end Composition

end MotionTemplate
