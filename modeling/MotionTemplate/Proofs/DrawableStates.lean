import MotionTemplate.Composition.Animation
import MotionTemplate.Proofs.Double.Between

/-! Animation states that can be drawn. Whatever times a selector is asked about, undefined and
infinite ones included, what it mixes stays between the states of a preset, and rounding does not
lead out of them. -/
namespace MotionTemplate

open Number

namespace AnimationState

/-- The ranges that a display can draw. -/
structure Drawable (s : AnimationState Float) : Prop where
  opacity : 0 ≤ s.opacity ∧ s.opacity ≤ 1
  translateY : -AnimationPreset.slideDistance ≤ s.translateY ∧
    s.translateY ≤ AnimationPreset.slideDistance
  scale : AnimationPreset.popScale ≤ s.scale ∧ s.scale ≤ 1
  clip : 0 ≤ s.clip ∧ s.clip ≤ 1

instance (s : AnimationState Float) : Decidable s.Drawable :=
  decidable_of_iff
    ((0 ≤ s.opacity ∧ s.opacity ≤ 1) ∧
      (-AnimationPreset.slideDistance ≤ s.translateY ∧
        s.translateY ≤ AnimationPreset.slideDistance) ∧
      (AnimationPreset.popScale ≤ s.scale ∧ s.scale ≤ 1) ∧ (0 ≤ s.clip ∧ s.clip ≤ 1))
    ⟨fun ⟨ho, ht, hs, hc⟩ => ⟨ho, ht, hs, hc⟩, fun ⟨ho, ht, hs, hc⟩ => ⟨ho, ht, hs, hc⟩⟩

/-- Rounded arithmetic leads from the one state exactly to the other. -/
structure Joins (a b : AnimationState Float) : Prop where
  opacity : Joined a.opacity b.opacity
  translateY : Joined a.translateY b.translateY
  scale : Joined a.scale b.scale
  clip : Joined a.clip b.clip

instance (a b : AnimationState Float) : Decidable (a.Joins b) :=
  decidable_of_iff
    (Joined a.opacity b.opacity ∧ Joined a.translateY b.translateY ∧ Joined a.scale b.scale ∧
      Joined a.clip b.clip)
    ⟨fun ⟨ho, ht, hs, hc⟩ => ⟨ho, ht, hs, hc⟩, fun ⟨ho, ht, hs, hc⟩ => ⟨ho, ht, hs, hc⟩⟩

/-- Between two joined states that can be drawn lie only such states. -/
theorem drawable_lerp {a b : AnimationState Float} {t : Float} (h : a.Joins b) (ha : a.Drawable)
    (hb : b.Drawable) (ht : t.isNaN = false) : (lerp a b t).Drawable := by
  obtain ⟨h0, h1⟩ := clamp_mem ht (show (0 : Float) ≤ 1 by decide)
  exact ⟨h.opacity.mix_mem h0 h1 ha.opacity hb.opacity,
    h.translateY.mix_mem h0 h1 ha.translateY hb.translateY,
    h.scale.mix_mem h0 h1 ha.scale hb.scale, h.clip.mix_mem h0 h1 ha.clip hb.clip⟩

end AnimationState

namespace AnimationPreset

/-- A preset whose states can be drawn and are joined, so that a layer starts and ends in them. -/
structure Playable (p : AnimationPreset Float) : Prop where
  initial : p.initial.Drawable
  animate : p.animate.Drawable
  exit : p.exit.Drawable
  enters : p.initial.Joins p.animate
  leaves : p.animate.Joins p.exit
  lerp_initial : AnimationState.lerp p.initial p.animate 0 = p.initial
  lerp_exit : AnimationState.lerp p.animate p.exit 1 = p.exit

theorem playable_ofKind (kind : AnimationKind) : (ofKind kind).Playable where
  initial := by cases kind <;> decide +kernel
  animate := by cases kind <;> decide +kernel
  exit := by cases kind <;> decide +kernel
  enters := by cases kind <;> decide +kernel
  leaves := by cases kind <;> decide +kernel
  lerp_initial := by cases kind <;> decide +kernel
  lerp_exit := by cases kind <;> decide +kernel

end AnimationPreset

/-- What is left of one without a part of it is such a part again. -/
private theorem one_sub_mem {c : Float} (h : 0 ≤ c ∧ c ≤ 1) : 0 ≤ 1 - c ∧ 1 - c ≤ 1 := by
  have hc : (1 - c).isNaN = false := isNaN_sub_of_isFinite (by decide) (le_iff.1 h.1).2.1
  have hlow := sub_le_sub_left_of_le h.2 hc (show (1 - 1 : Float).isNaN = false by decide +kernel)
  have hhigh := sub_le_sub_left_of_le h.1 (show (1 - 0 : Float).isNaN = false by decide +kernel) hc
  rw [show (1 - 1 : Float) = 0 by decide +kernel] at hlow
  rw [show (1 - 0 : Float) = 1 by decide +kernel] at hhigh
  exact ⟨hlow, hhigh⟩

/-- The curve stays between its ends. -/
theorem easeOutCubic_mem {t : Float} (ht : t.isNaN = false) :
    0 ≤ easeOutCubic t ∧ easeOutCubic t ≤ 1 := by
  obtain ⟨h0, h1⟩ := one_sub_mem (clamp_mem ht (show (0 : Float) ≤ 1 by decide))
  have hfinite := isFinite_of_le h0 h1 (by decide)
  obtain ⟨hsquare0, hsquare1⟩ := mul_mem_of_nonneg h0 h1 hfinite h0
  obtain ⟨hcube0, hcube1⟩ :=
    mul_mem_of_nonneg hsquare0 (Number.le_trans hsquare1 h1) hfinite h0
  exact one_sub_mem ⟨hcube0, Number.le_trans hcube1 h1⟩

private theorem isNaN_easeOutCubic {t : Float} (h : 0 ≤ t) : (easeOutCubic t).isNaN = false :=
  (le_iff.1 (easeOutCubic_mem (le_iff.1 h).2.1).1).2.1

/-- What is reported of the way through a phase: an animation is not at its end while it enters. -/
def AnimationPhase.InRange : AnimationPhase Float → Prop
  | entering progress => 0 ≤ progress ∧ progress < 1
  | steady => True
  | exiting progress => 0 ≤ progress ∧ progress ≤ 1

namespace AnimationSelector

/-- The selectors that there are. -/
inductive Made : AnimationSelector Float → Prop
  | standard : Made .standard
  | new (minSecs maxSecs : Float) : Made (.new minSecs maxSecs)

variable {s : AnimationSelector Float} {duration e r : Float}

/-- A selector holds a usable range, also where another one was asked for. -/
theorem usable_of_made (h : s.Made) : usable s.minSecs s.maxSecs := by
  have hstandard : usable (α := Float) standard.minSecs standard.maxSecs := by decide +kernel
  cases h with
  | standard => exact hstandard
  | new minSecs maxSecs =>
    rw [new]
    split
    · next husable => exact husable
    · exact hstandard

/-- A duration in the range is a positive number of seconds, whatever was declared. -/
theorem clampDuration_pos (h : s.Made) (secs : Float) :
    0 < s.clampDuration secs ∧ (s.clampDuration secs).isFinite := by
  have husable := usable_of_made h
  simp only [usable, Measure.isFinite_float, Bool.and_eq_true, decide_eq_true_iff] at husable
  obtain ⟨⟨⟨hmin, hmax⟩, hpos⟩, hle⟩ := husable
  rw [clampDuration]
  split
  · exact ⟨hpos, hmin⟩
  · next hn =>
    obtain ⟨hlow, hhigh⟩ := clamp_mem (eq_false_of_ne_true hn) hle
    exact ⟨Number.lt_of_lt_of_le hpos hlow, isFinite_of_mem hmin hmax ⟨hlow, hhigh⟩⟩

section

variable (hd : 0 < duration) (hf : duration.isFinite)
include hd hf

private theorem div_mem {x : Float} (hx0 : 0 ≤ x) (h : x < duration) :
    0 ≤ x / duration ∧ x / duration < 1 := by
  have hx : x.isFinite := isFinite_of_le hx0 (le_of_lt h) hf
  have hlow := div_le_div_of_isFinite hx0 (by decide) hx hd
  rw [zero_div_of_pos hd] at hlow
  exact ⟨hlow, div_lt_one hx0 h hf⟩

theorem inRange_phase (e : Float) (o : Option Float) : (phase duration e o).InRange := by
  have hcounted : 0 ≤ if e.isFinite then atLeastZero e else 0 := by
    split
    · exact atLeastZero_nonneg e
    · decide
  simp only [phase, Measure.isFinite_float]
  generalize (if e.isFinite then atLeastZero e else 0) = counted at hcounted ⊢
  split
  · next henters => exact div_mem hd hf hcounted henters
  · split
    · next r hr =>
      obtain ⟨-, hcond⟩ := Option.filter_eq_some_iff.1 hr
      rw [Bool.and_eq_true, decide_eq_true_iff] at hcond
      have hlt : atLeastZero r < duration := by
        rw [atLeastZero]
        split
        · exact hcond.2
        · exact hd
      obtain ⟨hlow, -⟩ := div_mem hd hf (atLeastZero_nonneg r) hlt
      have hrest : (1 - atLeastZero r / duration).isNaN = false :=
        isNaN_sub_of_isFinite (by decide) (le_iff.1 hlow).2.1
      exact clamp_mem hrest (by decide)
    · trivial

end

/-- Times that are undefined, infinite or below zero count as the moment of appearing. -/
theorem phase_of_not_pos (hd : 0 < duration) (he : e.isFinite = false ∨ e ≤ 0) (o : Option Float) :
    phase duration e o = .entering 0 := by
  have hzero : (if e.isFinite then atLeastZero e else 0) = 0 := by
    rcases he with he | he
    · rw [he, if_neg Bool.false_ne_true]
    · rw [atLeastZero, if_neg (not_lt_of_le he), ite_self]
  simp only [phase, Measure.isFinite_float, hzero, if_pos hd, zero_div_of_pos hd]

/-- With nothing left, a layer that has entered is all the way out. -/
theorem phase_of_no_rest (hd : 0 < duration) (he : e.isFinite) (hentered : duration ≤ e)
    (hr : r.isFinite) (hrest : r ≤ 0) : phase duration e (some r) = .exiting 1 := by
  have hpos : 0 < e := Number.lt_of_lt_of_le hd hentered
  have hlt : r < duration := Number.lt_of_le_of_lt hrest hd
  have hleaves : (some r).filter (fun r => r.isFinite && r < duration) = some r := by
    rw [Option.filter_some, if_pos]
    rw [Bool.and_eq_true, decide_eq_true_iff]
    exact ⟨hr, hlt⟩
  have hout : clamp (1 - 0 : Float) 0 1 = 1 := by decide +kernel
  simp only [phase, Measure.isFinite_float, he, if_true, atLeastZero, if_pos hpos,
    if_neg (not_lt_of_le hentered), hleaves, if_neg (not_lt_of_le hrest), zero_div_of_pos hd, hout]

variable {kind : AnimationKind}

theorem drawable_stateIn {phase : AnimationPhase Float} (h : phase.InRange) :
    (stateIn (.ofKind kind) phase).Drawable := by
  have hplays := AnimationPreset.playable_ofKind kind
  cases phase with
  | entering p =>
    exact AnimationState.drawable_lerp hplays.enters hplays.initial hplays.animate
      (isNaN_easeOutCubic h.1)
  | steady => exact hplays.animate
  | exiting p =>
    exact AnimationState.drawable_lerp hplays.leaves hplays.animate hplays.exit
      (isNaN_easeOutCubic h.1)

theorem stateIn_entering_zero : stateIn (.ofKind kind) (.entering 0) =
    (AnimationPreset.ofKind kind : AnimationPreset Float).initial := by
  have hstart : easeOutCubic (0 : Float) = 0 := by decide +kernel
  rw [stateIn, hstart, (AnimationPreset.playable_ofKind kind).lerp_initial]

theorem stateIn_exiting_one : stateIn (.ofKind kind) (.exiting 1) =
    (AnimationPreset.ofKind kind : AnimationPreset Float).exit := by
  have hend : easeOutCubic (1 : Float) = 1 := by decide +kernel
  rw [stateIn, hend, (AnimationPreset.playable_ofKind kind).lerp_exit]

/-- Whatever a selector is asked, it shows a layer in a state that can be drawn, and reports a
progress between none and all. An animation starts from the initial state of its kind, and one that
has entered ends in the exit state. -/
theorem select_drawable (hs : s.Made) (spec : Option (AnimationSpec Float)) (elapsed : Float)
    (exitRemaining : Option Float) :
    let frame := s.select spec elapsed exitRemaining
    frame.state.Drawable ∧ frame.phase.InRange ∧
      ∀ a, spec = some a →
        (elapsed.isFinite = false ∨ elapsed ≤ 0 →
          frame.state = (AnimationPreset.ofKind a.kind).initial) ∧
        ∀ rest, exitRemaining = some rest → rest.isFinite → rest ≤ 0 →
          elapsed.isFinite → s.clampDuration a.duration ≤ elapsed →
          frame.state = (AnimationPreset.ofKind a.kind).exit := by
  simp only [select]
  cases hspec : spec.filter (·.kind ≠ .none) with
  | none =>
    have hrests := AnimationPreset.playable_ofKind .none
    refine ⟨hrests.animate, trivial, ?_⟩
    rintro a rfl
    -- all three states of a layer without animation are the same
    have hkind : a.kind = .none := by simpa using hspec
    rw [hkind]
    exact ⟨fun _ => rfl, fun _ _ _ _ _ _ => rfl⟩
  | some b =>
    obtain ⟨rfl, -⟩ := Option.filter_eq_some_iff.1 hspec
    obtain ⟨hd, hf⟩ := clampDuration_pos hs b.duration
    have hphase := inRange_phase hd hf elapsed exitRemaining
    refine ⟨drawable_stateIn hphase, hphase, ?_⟩
    rintro a ⟨⟩
    dsimp only
    constructor
    · intro hstart
      rw [phase_of_not_pos hd hstart, stateIn_entering_zero]
    · rintro rest rfl hfinite hrest he hentered
      rw [phase_of_no_rest hd he hentered hfinite hrest, stateIn_exiting_one]

/-- A selector with a range that is none, asked at an undefined time and, later, at the last
moment: a title slides in from below and is gone to above. -/
theorem title_slides_through :
    let title : AnimationSpec Float := ⟨.slideUp, 0.5⟩
    let s : AnimationSelector Float := .new 2.0 1.0
    (s.select (some title) (0.0 / 0.0) none).state = ⟨0, 80, 1, 1⟩ ∧
      (s.select (some title) 3.0 (some 0.0)).state = ⟨0, -80, 1, 1⟩ := by
  intro title s
  obtain ⟨-, -, hstart⟩ := select_drawable (.new 2.0 1.0) (some title) (0.0 / 0.0) none
  obtain ⟨-, -, hend⟩ := select_drawable (.new 2.0 1.0) (some title) 3.0 (some 0.0)
  constructor
  · rw [(hstart title rfl).1 (.inl (by decide +kernel))]
    decide +kernel
  · rw [(hend title rfl).2 0.0 rfl (by decide) (by decide) (by decide +kernel) (by decide +kernel)]
    decide +kernel

end AnimationSelector

end MotionTemplate
