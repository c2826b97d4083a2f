import MotionTemplate.CommandLine.Program
import MotionTemplate.Proofs.Double.Arithmetic
import MotionTemplate.Proofs.PlayheadStep
import MotionTemplate.Proofs.PreviewEvent
import MotionTemplate.Proofs.StructuralFlaws

/-! Usable durations. Presets are matched up to a billionth, so beside a preset below that a
duration passes that is not above zero. Nothing else keeps a composition from a usable duration,
and a playhead from the duration of its composition. -/
namespace MotionTemplate

open Playhead (usableDuration usableDuration_iff)

namespace Definition

variable {d : Definition}

/-- The presets of a definition without a flaw. -/
private theorem presets_of_validate (h : d.validate = .ok ()) :
    d.durationPresets ≠ [] ∧ ∀ secs ∈ d.durationPresets, usableDuration secs := by
  obtain ⟨hwell, -⟩ := validate_eq_ok_iff.1 h
  exact ⟨hwell.presets, fun secs hs => usableDuration_iff.2 (hwell.positive secs hs)⟩

private theorem usable_defaultDuration (h : d.validate = .ok ()) :
    usableDuration d.defaultDuration := by
  obtain ⟨hne, husable⟩ := presets_of_validate h
  obtain ⟨secs, rest, hp⟩ := List.exists_cons_of_ne_nil hne
  have hdefault : d.defaultDuration = secs := by rw [defaultDuration, hp, List.head?_cons]; rfl
  rw [hdefault]
  exact husable secs (hp ▸ List.mem_cons_self)

/-- What is a billionth away from a finite preset is finite. -/
private theorem isFinite_of_isPreset (h : d.validate = .ok ()) {secs : Float}
    (hs : d.isPreset secs) : secs.isFinite := by
  obtain ⟨preset, hmem, hnear⟩ := List.any_eq_true.1 hs
  have hlt : (preset - secs).abs < 1e-9 := of_decide_eq_true hnear
  have hpreset : preset.isFinite := (usableDuration_iff.1 ((presets_of_validate h).2 _ hmem)).1
  exact Number.isFinite_of_sub hpreset (Number.isFinite_of_abs_lt (by decide) hlt)

end Definition

namespace Customization

variable {d : Definition} {c : Customization}

/-- The duration asked for is not above zero, and passes for a preset. -/
def AsksNoTime (c : Customization) (d : Definition) : Prop :=
  ∃ secs, c.duration = some secs ∧ d.isPreset secs ∧ ¬ 0 < secs

/-- The duration asked for is below zero, and passes for a preset. -/
def AsksTimeBack (c : Customization) (d : Definition) : Prop :=
  ∃ secs, c.duration = some secs ∧ d.isPreset secs ∧ secs < 0

/-- A duration is the one asked for, which passes for a preset, or it is usable. -/
private theorem effectiveDuration_cases (h : d.validate = .ok ()) (c : Customization)
    (bounds : DurationBounds) :
    (∃ secs, c.duration = some secs ∧ d.isPreset secs ∧
      c.effectiveDuration d bounds = secs) ∨
    ((∀ secs, c.duration = some secs → d.isPreset secs = false) ∧
      usableDuration (c.effectiveDuration d bounds)) := by
  have hdefault := Definition.usable_defaultDuration h
  cases hc : c.duration with
  | none =>
    simp only [effectiveDuration, hc]
    exact .inr ⟨fun _ hsecs => absurd hsecs (Option.some_ne_none _).symm, hdefault⟩
  | some secs =>
    simp only [effectiveDuration, hc, acceptsDuration]
    by_cases hp : d.isPreset secs = true
    · exact .inl ⟨secs, rfl, hp, by simp [hp]⟩
    · rw [Bool.not_eq_true] at hp
      refine .inr ⟨fun _ hs => Option.some.inj hs ▸ hp, ?_⟩
      by_cases hb : bounds.contains secs
      · simp only [hb, Bool.or_true, if_true]
        simp only [DurationBounds.contains, Bool.and_eq_true, decide_eq_true_iff] at hb
        exact usableDuration_iff.2 hb.1
      · simpa [hp, hb] using hdefault

private theorem isFinite_effectiveDuration (h : d.validate = .ok ()) (c : Customization)
    (bounds : DurationBounds) : (c.effectiveDuration d bounds).isFinite := by
  obtain ⟨secs, -, hp, heq⟩ | ⟨-, husable⟩ := effectiveDuration_cases h c bounds
  · rw [heq]
    exact Definition.isFinite_of_isPreset h hp
  · exact (usableDuration_iff.1 husable).1

private theorem pos_effectiveDuration_iff (h : d.validate = .ok ()) (c : Customization)
    (bounds : DurationBounds) : 0 < c.effectiveDuration d bounds ↔ ¬ c.AsksNoTime d := by
  obtain ⟨secs, hc, hp, heq⟩ | ⟨hno, husable⟩ := effectiveDuration_cases h c bounds
  · rw [heq]
    refine ⟨fun hpos => ?_, fun hno => Decidable.byContradiction fun hpos => hno ⟨_, hc, hp, hpos⟩⟩
    rintro ⟨_, hc', -, hnot⟩
    obtain rfl := Option.some.inj (hc.symm.trans hc')
    exact hnot hpos
  · refine iff_of_true (usableDuration_iff.1 husable).2 ?_
    rintro ⟨secs, hc, hp, -⟩
    exact Bool.false_ne_true ((hno secs hc).symm.trans hp)

private theorem nonneg_effectiveDuration_iff (h : d.validate = .ok ()) (c : Customization)
    (bounds : DurationBounds) : 0 ≤ c.effectiveDuration d bounds ↔ ¬ c.AsksTimeBack d := by
  obtain ⟨secs, hc, hp, heq⟩ | ⟨hno, husable⟩ := effectiveDuration_cases h c bounds
  · have hn : secs.isNaN = false :=
      (Number.isFinite_iff.1 (Definition.isFinite_of_isPreset h hp)).1
    rw [heq]
    constructor
    · rintro hle ⟨_, hc', -, hlt⟩
      obtain rfl := Option.some.inj (hc.symm.trans hc')
      have hle' := (Number.le_iff.1 hle).2.2
      have hlt' := (Number.lt_iff.1 hlt).2.2
      omega
    · intro hno
      exact (Number.lt_or_le hn rfl).resolve_left fun hlt => hno ⟨_, hc, hp, hlt⟩
  · refine iff_of_true (Number.le_of_lt (usableDuration_iff.1 husable).2) ?_
    rintro ⟨secs, hc, hp, -⟩
    exact Bool.false_ne_true ((hno secs hc).symm.trans hp)

private theorem usable_effectiveDuration_iff (h : d.validate = .ok ()) (c : Customization)
    (bounds : DurationBounds) :
    usableDuration (c.effectiveDuration d bounds) ↔ ¬ c.AsksNoTime d := by
  rw [usableDuration_iff, ← pos_effectiveDuration_iff h c bounds]
  exact and_iff_right (isFinite_effectiveDuration h c bounds)

end Customization

namespace Previewer

/-- The playhead keeps a usable duration, and has that of the composition if it is usable. -/
structure Timed (p : Previewer) : Prop where
  usable : usableDuration p.playhead.duration
  follows : usableDuration p.composition.duration → p.playhead.duration = p.composition.duration

variable {p : Previewer}

private theorem Timed.duration_eq_iff (h : p.Timed) :
    p.playhead.duration = p.composition.duration ↔ usableDuration p.composition.duration :=
  ⟨fun he => he ▸ h.usable, h.follows⟩

/-- What leaves the composition and the playhead's duration alone keeps them in step. -/
private theorem Timed.of_eq {q : Previewer} (h : p.Timed) (hc : q.composition = p.composition)
    (hd : q.playhead.duration = p.playhead.duration) : q.Timed := by
  refine ⟨hd ▸ h.usable, ?_⟩
  rw [hc, hd]
  exact h.follows

theorem timed_mount {d : Definition} {c : Customization} {options : PreviewOptions}
    (h : mount d c options = .ok p) : p.Timed := by
  obtain ⟨scale, rfl⟩ := mount_eq h
  refine ⟨Playhead.usableDuration_new _, fun hu => ?_⟩
  exact if_pos hu

/-- A composition that is resolved anew hands its duration to the playhead. -/
private theorem timed_customize (h : p.Timed) (now : Float) (c : Customization) :
    (p.customize now c).Timed := by
  let secs := (Composition.ofDefinition p.definition c p.options.bounds).duration
  have hd : (p.playhead.setDuration secs now).duration =
      if usableDuration secs then secs else p.playhead.duration :=
    p.playhead.duration_act (.setDuration secs now)
  exact ⟨Playhead.usableDuration_act h.usable (.setDuration secs now),
    fun hu => hd.trans (if_pos hu)⟩

private theorem timed_meet (h : p.Timed) (e : PreviewEvent) : (p.meet e).1.Timed := by
  cases e with
  | tick now =>
    rw [meet_tick]
    split
    · exact h.of_eq rfl (p.playhead.duration_act (.advance now))
    · exact h
  | command now c =>
    rw [meet_command]
    cases c with
    | play => exact h.of_eq rfl (p.playhead.duration_act (.play now))
    | pause => exact h.of_eq rfl (p.playhead.duration_act (.pause now))
    | toggle => exact h.of_eq rfl (p.playhead.duration_act (.toggle now))
    | beginScrub => exact h.of_eq rfl (p.playhead.duration_act (.beginScrub now))
    | endScrub => exact h.of_eq rfl (p.playhead.duration_act (.endScrub now))
    | scrubTo t => exact h.of_eq rfl (p.playhead.duration_act (.scrubTo t now))
    | setCustomization | setTheme | setDuration | setPlaceholder => exact timed_customize h now _
    | frame | unmount => exact h.of_eq rfl rfl
    | resize width =>
      simp only [command]
      split
      · split <;> exact h.of_eq rfl rfl
      · exact h

theorem timed_after (h : p.Timed) (events : List PreviewEvent) :
    (p.after events).Timed := by
  induction events generalizing p with
  | nil => exact h
  | cons e rest ih => exact ih (timed_meet h e)

theorem duration_after {d : Definition} {c : Customization} {options : PreviewOptions}
    (h : mount d c options = .ok p) (events : List PreviewEvent) :
    (p.after events).composition.duration =
      (p.after events).customization.effectiveDuration d options.bounds := by
  obtain ⟨hd, ho, hfresh⟩ : p.definition = d ∧ p.options = options ∧ p.Fresh := by
    obtain ⟨scale, rfl⟩ := mount_eq h
    exact ⟨rfl, rfl, rfl⟩
  obtain ⟨hda, hoa⟩ := after_fixed p events
  rw [fresh_after hfresh events, hda, hoa, hd, ho]
  rfl

end Previewer

namespace Customization

/-- For a definition that passed validation, the duration of a customization is always finite. It
is above zero, and the playhead of a previewer has it at every point of a run, exactly unless what
is asked for is not above zero and passes for a preset. A single frame has its time held in the
composition exactly unless that duration is below zero. -/
theorem duration_usable_iff {d : Definition} (h : d.validate = .ok ()) (c : Customization)
    (bounds : DurationBounds) :
    (c.effectiveDuration d bounds).isFinite ∧
      (0 < c.effectiveDuration d bounds ↔ ¬ c.AsksNoTime d) ∧
      (∀ options p₀ events, Previewer.mount d c options = .ok p₀ →
        ((p₀.after events).playhead.duration = (p₀.after events).composition.duration ↔
          ¬ (p₀.after events).customization.AsksNoTime d)) ∧
      ∀ time, (CommandLine.frameTime? (Composition.ofDefinition d c bounds) time).isSome ↔
        ¬ c.AsksTimeBack d := by
  refine ⟨isFinite_effectiveDuration h c bounds, pos_effectiveDuration_iff h c bounds,
    fun options p₀ events hmount => ?_, fun time => ?_⟩
  · have htimed := Previewer.timed_after (Previewer.timed_mount hmount) events
    rw [htimed.duration_eq_iff, Previewer.duration_after hmount]
    exact usable_effectiveDuration_iff h _ _
  · rw [CommandLine.frameTime?, ← nonneg_effectiveDuration_iff h c bounds, Option.isSome_ite]
    exact Iff.rfl

/-- A card with a single preset. -/
private def cardOf (preset : Float) : Definition :=
  { Definition.new "card" "Card" 1080 1920 30 with durationPresets := [preset] }

/-- Beside a preset of fifteen seconds whatever passes for it is above zero. -/
theorem long_preset_usable :
    (cardOf 15.0).validate = .ok () ∧
      let c := Customization.empty.withDuration 15.0000000005
      (cardOf 15.0).isPreset 15.0000000005 ∧ 0 < c.effectiveDuration (cardOf 15.0) .standard ∧
        (CommandLine.frameTime?
          (Composition.ofDefinition (cardOf 15.0) c .standard) 20.0).isSome := by
  have hvalid : (cardOf 15.0).validate = .ok () := by decide +kernel
  have hpos : (0 : Float) < 15.0000000005 := by decide
  obtain ⟨-, husable, -, htime⟩ :=
    duration_usable_iff hvalid (Customization.empty.withDuration 15.0000000005) .standard
  refine ⟨hvalid, by decide +kernel, husable.2 ?_, (htime 20.0).2 ?_⟩
  · rintro ⟨secs, hsecs, -, hnot⟩
    obtain rfl := Option.some.inj hsecs
    exact hnot hpos
  · rintro ⟨secs, hsecs, -, hlt⟩
    obtain rfl := Option.some.inj hsecs
    exact absurd hlt (by decide)

/-- Beside a preset of half a billionth of a second no time at all passes for it. The playhead then
goes its own way, and for a little less than no time no frame can be asked for. -/
theorem tiny_preset_unusable :
    (cardOf 5e-10).validate = .ok () ∧
      ¬ 0 < (Customization.empty.withDuration 0).effectiveDuration (cardOf 5e-10) .standard ∧
      (∃ p, Previewer.mount (cardOf 5e-10) (Customization.empty.withDuration 0) .standard = .ok p ∧
        p.playhead.duration ≠ p.composition.duration) ∧
      CommandLine.frameTime? (Composition.ofDefinition (cardOf 5e-10)
        (Customization.empty.withDuration (-4e-10)) .standard) 1.0 = none := by
  refine ⟨by decide +kernel, by decide +kernel, ⟨_, rfl, ?_⟩, by decide +kernel⟩
  decide +kernel

end Customization

end MotionTemplate
