import MotionTemplate.Preview.Previewer

/-! What a previewer meets while it is on display: the frames of the loop and the commands of its
host. What it shows never lags behind what it met. -/
namespace MotionTemplate

/-- A frame of the loop, or a command at the time that the clock shows. -/
inductive PreviewEvent where
  | tick (now : Float)
  | command (now : Float) (c : PreviewCommand)

/-- The customization after an event. -/
def PreviewEvent.edit (c : Customization) : PreviewEvent → Customization
  | .tick _ => c
  | .command _ cmd => (Previewer.edited? c cmd).getD c

namespace Previewer

/-- What an event makes of a previewer, and the frame it composes on the way. The loop passes by
what is not mounted. -/
def meet (p : Previewer) : PreviewEvent → Previewer × Option Frame
  | .tick now =>
    if p.mounted then
      let playhead := p.playhead.advance now
      let (p, frame) := ({ p with playhead }).compose playhead.time
      (p, some frame)
    else (p, none)
  | .command now c =>
    match p.command now c with
    | (p, .frame frame) => (p, some frame)
    | (p, _) => (p, none)

/-- The previewer after some events. -/
def after (p : Previewer) (events : List PreviewEvent) : Previewer :=
  events.foldl (fun p e => (p.meet e).1) p

/-- The frames that are composed in some events, the first one first. -/
def framesOf (p : Previewer) : List PreviewEvent → List Frame
  | [] => []
  | e :: rest => (p.meet e).2.toList ++ (p.meet e).1.framesOf rest

/-- The frame of the composition at the time of the playhead, as large as the display now is. -/
def currentFrame (p : Previewer) : Frame :=
  p.composition.frameAt p.playhead.time p.scale.scale p.options.selector

/-- The composition that is kept is the one that would be resolved now. -/
def Fresh (p : Previewer) : Prop :=
  p.composition = Composition.ofDefinition p.definition p.customization p.options.bounds

variable {p : Previewer} {e : PreviewEvent}

/-- A previewer starts with the composition of what it was given, and without a frame. -/
theorem mount_eq {d : Definition} {c : Customization} {options : PreviewOptions}
    (h : mount d c options = .ok p) :
    ∃ scale, p = {
      definition := d
      customization := c
      options
      composition := Composition.ofDefinition d c options.bounds
      playhead := (Playhead.new (Composition.ofDefinition d c options.bounds).duration).setLoop
        options.looping
      scale
      tracker := .empty
      lastFrame := none
      framesComposed := 0
      mounted := true } := by
  rw [mount] at h
  cases hs : initialScale d.canvas options.containerWidth with
  | error e =>
    rw [hs] at h
    exact nomatch h
  | ok scale =>
    rw [hs] at h
    exact ⟨scale, (Except.ok.inj h).symm⟩

theorem meet_tick (p : Previewer) (now : Float) :
    (p.meet (.tick now)).1 = if p.mounted then p.tick now else p := by
  simp only [meet]
  split <;> rfl

theorem meet_command (p : Previewer) (now : Float) (c : PreviewCommand) :
    (p.meet (.command now c)).1 = (p.command now c).1 := by
  simp only [meet]
  split
  · next h => rw [h]
  · next h => rw [h]

/-- A resize, accepted or not, composes no frame and changes no more than the scale. -/
theorem meet_resize (p : Previewer) (now width : Float) :
    ∃ scale, p.meet (.command now (.resize width)) = ({ p with scale }, none) := by
  rw [meet, command]
  by_cases hm : p.mounted
  · rw [if_pos hm]
    cases p.scale.resize width with
    | ok resized => exact ⟨resized.1, rfl⟩
    | error e => exact ⟨p.scale, rfl⟩
  · rw [if_neg hm]
    exact ⟨p.scale, rfl⟩

theorem mounted_command (p : Previewer) (now : Float) (c : PreviewCommand) :
    (p.meet (.command now c)).1.mounted = if c = .unmount then false else p.mounted := by
  cases c with
  | resize width =>
    obtain ⟨scale, h⟩ := meet_resize p now width
    rw [h]
    rfl
  | _ => rfl

/-- An event leaves the template and the options alone. -/
theorem meet_fixed (p : Previewer) (e : PreviewEvent) :
    (p.meet e).1.definition = p.definition ∧ (p.meet e).1.options = p.options := by
  cases e with
  | tick now =>
    rw [meet_tick]
    split <;> exact ⟨rfl, rfl⟩
  | command now c =>
    cases c with
    | resize width =>
      obtain ⟨scale, h⟩ := meet_resize p now width
      rw [h]
      exact ⟨rfl, rfl⟩
    | _ => exact ⟨rfl, rfl⟩

theorem meet_customization (p : Previewer) (e : PreviewEvent) :
    (p.meet e).1.customization = e.edit p.customization := by
  cases e with
  | tick now =>
    rw [meet_tick]
    split <;> rfl
  | command now c =>
    cases c with
    | resize width =>
      obtain ⟨scale, h⟩ := meet_resize p now width
      rw [h]
      rfl
    | _ => rfl

/-- An event does at most one thing to the playhead. -/
theorem playhead_meet (p : Previewer) (e : PreviewEvent) :
    (p.meet e).1.playhead = p.playhead ∨
      ∃ action, (p.meet e).1.playhead = p.playhead.act action := by
  cases e with
  | tick now =>
    rw [meet_tick]
    split
    · exact .inr ⟨.advance now, rfl⟩
    · exact .inl rfl
  | command now c =>
    cases c with
    | play => exact .inr ⟨.play now, rfl⟩
    | pause => exact .inr ⟨.pause now, rfl⟩
    | toggle => exact .inr ⟨.toggle now, rfl⟩
    | beginScrub => exact .inr ⟨.beginScrub now, rfl⟩
    | endScrub => exact .inr ⟨.endScrub now, rfl⟩
    | scrubTo t => exact .inr ⟨.scrubTo t now, rfl⟩
    | setCustomization | setTheme | setDuration | setPlaceholder =>
      exact .inr ⟨.setDuration _ now, rfl⟩
    | frame | unmount => exact .inl rfl
    | resize width =>
      obtain ⟨scale, h⟩ := meet_resize p now width
      rw [h]
      exact .inl rfl

/-- Every edit resolves the composition anew, and nothing else needs to. -/
theorem fresh_meet (h : p.Fresh) (e : PreviewEvent) : (p.meet e).1.Fresh := by
  cases e with
  | tick now =>
    rw [meet_tick]
    split <;> exact h
  | command now c =>
    cases c with
    | setCustomization | setTheme | setDuration | setPlaceholder => exact rfl
    | resize width =>
      obtain ⟨scale, hr⟩ := meet_resize p now width
      rw [hr]
      exact h
    | _ => exact h

/-- A frame that is composed is the one of the moment, and it is remembered. -/
theorem meet_frame {frame : Frame} (h : (p.meet e).2 = some frame) :
    frame = (p.meet e).1.currentFrame ∧ (p.meet e).1.lastFrame = some frame := by
  cases e with
  | tick now =>
    simp only [meet] at h ⊢
    split at h
    · next hm =>
      rw [if_pos hm]
      obtain rfl := Option.some.inj h
      exact ⟨rfl, rfl⟩
    · exact nomatch h
  | command now c =>
    cases c with
    | scrubTo | frame =>
      obtain rfl := Option.some.inj h
      exact ⟨rfl, rfl⟩
    | resize width =>
      obtain ⟨scale, hr⟩ := meet_resize p now width
      rw [hr] at h
      exact nomatch h
    | _ => exact nomatch h

/-- Without a frame the one before is still the last. -/
theorem meet_quiet (h : (p.meet e).2 = none) : (p.meet e).1.lastFrame = p.lastFrame := by
  cases e with
  | tick now =>
    simp only [meet] at h ⊢
    split at h
    · exact nomatch h
    · next hm => rw [if_neg hm]
  | command now c =>
    cases c with
    | scrubTo | frame => exact nomatch h
    | resize width =>
      obtain ⟨scale, hr⟩ := meet_resize p now width
      rw [hr]
    | _ => rfl

theorem after_fixed (p : Previewer) (events : List PreviewEvent) :
    (p.after events).definition = p.definition ∧ (p.after events).options = p.options := by
  induction events generalizing p with
  | nil => exact ⟨rfl, rfl⟩
  | cons e rest ih =>
    obtain ⟨hd, ho⟩ := meet_fixed p e
    obtain ⟨hrd, hro⟩ := ih (p.meet e).1
    exact ⟨hrd.trans hd, hro.trans ho⟩

theorem after_customization (p : Previewer) (events : List PreviewEvent) :
    (p.after events).customization = events.foldl PreviewEvent.edit p.customization := by
  induction events generalizing p with
  | nil => rfl
  | cons e rest ih =>
    rw [List.foldl_cons, ← meet_customization]
    exact ih (p.meet e).1

theorem fresh_after (h : p.Fresh) (events : List PreviewEvent) : (p.after events).Fresh := by
  induction events generalizing p with
  | nil => exact h
  | cons e rest ih => exact ih (fresh_meet h e)

/-- The last frame is the latest that was composed. Until then it is the one from before. -/
theorem after_lastFrame (p : Previewer) (events : List PreviewEvent) :
    (p.after events).lastFrame = (p.framesOf events).getLast?.or p.lastFrame := by
  induction events generalizing p with
  | nil => rfl
  | cons e rest ih =>
    have hrest : (p.after (e :: rest)).lastFrame =
        ((p.meet e).1.framesOf rest).getLast?.or (p.meet e).1.lastFrame := ih (p.meet e).1
    rw [hrest, framesOf, List.getLast?_append, Option.or_assoc]
    cases h : (p.meet e).2 with
    | none => rw [meet_quiet h]; rfl
    | some frame => rw [(meet_frame h).2]; rfl

end Previewer

end MotionTemplate
