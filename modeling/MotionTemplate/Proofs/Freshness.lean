import MotionTemplate.Proofs.StageRun

/-! A previewer never shows what is out of date. Whatever the order of edits, transport, resizes and
ticks on its stage, its composition is the one of its current customization, and each frame is
composed from that, at the time and the scale of its moment. -/
namespace MotionTemplate

namespace Previewer

/-- A previewer that was mounted with a template and options, and that is not behind. -/
private structure Shows (d : Definition) (options : PreviewOptions) (p : Previewer) : Prop where
  definition : p.definition = d
  options : p.options = options
  fresh : p.Fresh

variable {d : Definition} {options : PreviewOptions} {p : Previewer}

private theorem Shows.after (h : p.Shows d options) (events : List PreviewEvent) :
    (p.after events).Shows d options := by
  obtain ⟨hd, ho⟩ := after_fixed p events
  exact ⟨hd.trans h.definition, ho.trans h.options, fresh_after h.fresh events⟩

private theorem Shows.composition (h : p.Shows d options) :
    p.composition = Composition.ofDefinition d p.customization options.bounds := by
  rw [h.fresh, h.definition, h.options]

private theorem Shows.currentFrame (h : p.Shows d options) :
    p.currentFrame = (Composition.ofDefinition d p.customization options.bounds).frameAt
      p.playhead.time p.scale.scale options.selector := by
  rw [Previewer.currentFrame, h.composition, h.options]

end Previewer

namespace Stage

variable {clock : Clock} {before after : List StageAction} {d : Definition} {c : Customization}
  {options : PreviewOptions} {s : Stage} {i : Nat}

/-- After any run the composition of a previewer is that of its customization, which is the one it
was mounted with under the edits since then. Its last frame is the latest it composed, and a frame
that it composes next is that of the moment. -/
theorem preview_never_stale
    (hmount : ((empty clock).run before).mount d c options = (s, .ok i))
    (hdrop : .drop i ∉ after) :
    ∃ p₀ p id, Previewer.mount d c options = .ok p₀ ∧ (s.run after).seat? i = some ⟨p, id⟩ ∧
      p.customization = (s.eventsOf i after).foldl PreviewEvent.edit c ∧
      p.composition = Composition.ofDefinition d p.customization options.bounds ∧
      p.lastFrame = (p₀.framesOf (s.eventsOf i after)).getLast? ∧
      ∀ a e frame, (s.run after).eventOf? i a = some e → (p.meet e).2 = some frame →
        ∃ q, ((s.run after).act a).seat? i = some ⟨q, id⟩ ∧ q.lastFrame = some frame ∧
          frame = (Composition.ofDefinition d q.customization options.bounds).frameAt
            q.playhead.time q.scale.scale options.selector := by
  have hwired : s.Wired := by
    have h := wired_act (wired_run (wired_empty clock) before) (.mount d c options)
    rwa [act, hmount] at h
  obtain ⟨p₀, hp₀, hseat⟩ := seat?_of_mount hmount
  have hrun := seat?_run hwired hseat hdrop
  let p := p₀.after (s.eventsOf i after)
  obtain ⟨scale, hp₀'⟩ := Previewer.mount_eq hp₀
  have hshows₀ : p₀.Shows d options := by
    rw [hp₀']
    exact ⟨rfl, rfl, rfl⟩
  have hshows : p.Shows d options := hshows₀.after _
  have hcustomization : p.customization = (s.eventsOf i after).foldl PreviewEvent.edit c := by
    rw [Previewer.after_customization, hp₀']
  have hlast : p.lastFrame = (p₀.framesOf (s.eventsOf i after)).getLast? := by
    rw [Previewer.after_lastFrame, show p₀.lastFrame = none by rw [hp₀'], Option.or_none]
  refine ⟨p₀, p, _, hp₀, hrun, hcustomization, hshows.composition, hlast,
    fun a e frame ha he => ?_⟩
  have hne : a ≠ .drop i := by
    rintro rfl
    cases ha
  have hnext := seat?_act (wired_run hwired after) hrun hne
  rw [ha] at hnext
  obtain ⟨hframe, hmet⟩ := Previewer.meet_frame he
  have hq : (p.meet e).1.Shows d options := hshows.after [e]
  exact ⟨(p.meet e).1, hnext, hmet, hframe.trans hq.currentFrame⟩

/-- An empty canvas. -/
private def card : Definition := Definition.new "card" "Card" 1080 1920 30

/-- A tick, a jump and an edit after a first mount are all met, and the tick after the unmount is
passed by. -/
theorem first_preview_never_stale :
    let s := ((empty .zero).mount card .empty .standard).1
    let after : List StageAction := [.tick 0.5, .command 0 (.scrubTo 1.5),
      .command 0 (.setTheme "gold"), .command 0 .unmount, .tick 2.5]
    ∃ p₀ p id, Previewer.mount card .empty .standard = .ok p₀ ∧
      (s.run after).seat? 0 = some ⟨p, id⟩ ∧
      p.customization = Customization.empty.withTheme "gold" ∧
      p.composition = Composition.ofDefinition card p.customization .standard ∧
      p.lastFrame = (p₀.framesOf (s.eventsOf 0 after)).getLast? := by
  intro s after
  obtain ⟨p, hp⟩ : ∃ p, Previewer.mount card .empty .standard = .ok p := ⟨_, rfl⟩
  obtain ⟨log, hs⟩ := mount_ok (s := empty .zero) hp
  have hindex := congrArg Prod.snd hs
  have hmount : ((empty .zero).run []).mount card .empty .standard = (s, .ok 0) :=
    Prod.ext rfl hindex
  have hdrop : .drop 0 ∉ after := by simp [after]
  obtain ⟨p₀, p, id, hp₀, hseat, hc, hcomp, hlast, -⟩ := preview_never_stale hmount hdrop
  exact ⟨p₀, p, id, hp₀, hseat, hc, hcomp, hlast⟩

end Stage

end MotionTemplate
