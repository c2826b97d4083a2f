import Mathlib.Data.List.Forall2
import MotionTemplate.Proofs.Blank
import MotionTemplate.Render.Frame
import MotionTemplate.Render.Plan

/-! A plan and a preview of one composition agree on what is on screen. Both walk the same layers,
and layer by layer they show the same content at the same place or both show nothing. -/
namespace MotionTemplate

namespace OverlayContent

/-- The kind of the layers that contribute this content. -/
def kind : OverlayContent → LayerKind
  | video .. => .video
  | image .. => .image
  | text _ => .text

/-- The address of the media, or the words of the text. -/
def shown : OverlayContent → String
  | video source _ | image source _ => source
  | text drawing => drawing.text

end OverlayContent

namespace FrameLayer

/-- The address of the media, or the words of a text. A solid layer has neither. -/
def content? (f : FrameLayer) : Option String :=
  match f.kind with
  | .solid => none
  | .video | .image => f.source
  | .text => f.text

/-- A layer that is not solid and whose content is more than white space. -/
def hasContent (f : FrameLayer) : Bool := f.content?.any (Text.trim · ≠ "")

end FrameLayer

/-- An overlay draws what a layer of a frame shows on a display. -/
structure Overlay.Draws (scale : Float) (o : Overlay) (f : FrameLayer) : Prop where
  layer : o.layer = f.id
  z : o.z = f.z
  kind : o.content.kind = f.kind
  content : f.content? = some o.content.shown
  x : o.x * scale = f.box.x
  y : o.y * scale = f.box.y

private theorem isEnabled_eq_isVisible {l : ResolvedLayer} {o : Overlay} {t duration : Float}
    (ht : t.isFinite) (ho : Overlay.ofLayer? duration l = some o) :
    o.isEnabled t = l.window.isVisible t duration := by
  obtain ⟨content, -, rfl⟩ := Option.map_eq_some_iff.1 ho
  have hf : Measure.isFinite t = true := ht
  simp only [Overlay.isEnabled, Window.isVisible, hf, Bool.true_and]

private theorem shown?_eq_filter (s : Option String) :
    OverlayContent.shown? s = s.filter (Text.trim · ≠ "") := by
  have h : (fun v => !Text.isBlankText v) = fun v => decide (Text.trim v ≠ "") := by
    funext v
    simp [Text.trim_eq_empty_iff]
  rw [OverlayContent.shown?, h]

/-- A layer contributes its own kind of content, and that content is the one its frame layer
shows, unless it is blank. -/
private theorem content_of_layer {l : ResolvedLayer} {f : FrameLayer} (hk : f.kind = l.kind)
    (hs : f.source = l.sourceString?) (ht : f.text = l.textString?) :
    (OverlayContent.ofLayer? l).map (fun c => (c.kind, c.shown)) =
      (f.content?.filter (Text.trim · ≠ "")).map (f.kind, ·) := by
  cases h : l.kind <;>
    simp [OverlayContent.ofLayer?, FrameLayer.content?, shown?_eq_filter, hk, hs, ht, h,
      OverlayContent.kind, OverlayContent.shown, OverlayContent.drawing, Function.comp_def]

section

variable {c : Composition} {t : Float} {l : ResolvedLayer} (scale : Float)
  (selector : AnimationSelector Float)

private theorem frame_of_visible (h : l.window.isVisible t c.duration = true) :
    ∃ f, FrameLayer.ofLayer? c t scale selector l = some f ∧ f.id = l.id ∧ f.kind = l.kind ∧
      f.z = l.z ∧ f.source = l.sourceString? ∧ f.text = l.textString? ∧
      f.box = (l.box c.canvas).scaled scale := by
  simp [FrameLayer.ofLayer?, Window.elapsed?, h]

private theorem frame_of_hidden (h : l.window.isVisible t c.duration = false) :
    FrameLayer.ofLayer? c t scale selector l = none := by
  rw [← Option.isNone_iff_eq_none, ← Option.not_isSome, FrameLayer.isSome_ofLayer?, h]
  rfl

end

private theorem hasContent_eq_false_iff {f : FrameLayer} :
    f.hasContent = false ↔ f.content?.filter (Text.trim · ≠ "") = none := by
  cases h : f.content? <;> simp [FrameLayer.hasContent, h]

/-- Layer by layer, the enabled overlay draws the frame layer that has content. -/
private theorem layer_drawn (c : Composition) {t : Float} (ht : t.isFinite) (scale : Float)
    (selector : AnimationSelector Float) (l : ResolvedLayer) :
    Option.Rel (Overlay.Draws scale)
      ((Overlay.ofLayer? c.duration l).filter (·.isEnabled t))
      ((FrameLayer.ofLayer? c t scale selector l).filter (·.hasContent)) := by
  cases hv : l.window.isVisible t c.duration with
  | false =>
    have ho : (Overlay.ofLayer? c.duration l).filter (·.isEnabled t) = none := by
      rw [Option.filter_eq_none_iff]
      intro o ho
      rw [isEnabled_eq_isVisible ht ho, hv]
      exact Bool.false_ne_true
    rw [ho, frame_of_hidden scale selector hv]
    exact .none
  | true =>
    obtain ⟨f, hf, hid, hk, hz, hs, htext, hbox⟩ :=
      frame_of_visible scale selector hv
    have hc := content_of_layer hk hs htext
    rw [hf]
    cases ho : Overlay.ofLayer? c.duration l with
    | none =>
      have hn : f.content?.filter (Text.trim · ≠ "") = none := by
        simpa [Option.map_eq_none_iff.1 ho] using hc.symm
      rw [Option.filter_none, Option.filter_some, hasContent_eq_false_iff.2 hn]
      exact .none
    | some o =>
      have he := isEnabled_eq_isVisible ht ho
      obtain ⟨content, hl, rfl⟩ := Option.map_eq_some_iff.1 ho
      rw [hl, Option.map_some, eq_comm, Option.map_eq_some_iff] at hc
      obtain ⟨v, hv', heq⟩ := hc
      obtain ⟨hkind, rfl⟩ := Prod.mk.inj heq
      obtain ⟨hcontent, hblank⟩ := Option.filter_eq_some_iff.1 hv'
      have hh : f.hasContent = true := by
        rw [FrameLayer.hasContent, hcontent]
        exact hblank
      rw [Option.filter_some, Option.filter_some, if_pos (he.trans hv), if_pos hh]
      refine .some ⟨hid.symm, hz.symm, hkind.symm, hcontent, ?_, ?_⟩
      · rw [hbox]
        rfl
      · rw [hbox]
        rfl

/-- What the renderer draws at a time is what a preview of the composition shows at that time, on
a display of any scale. -/
theorem enabled_overlays_draw_frame (d : Definition) (c : Customization) (bounds : DurationBounds)
    (t scale : Float) (selector : AnimationSelector Float) (ht : t.isFinite) :
    let composition := Composition.ofDefinition d c bounds
    List.Forall₂ (Overlay.Draws scale) ((RenderPlan.ofComposition composition).enabledAt t)
      ((composition.frameAt t scale selector).layers.filter (·.hasContent)) := by
  intro composition
  rw [RenderPlan.enabledAt, RenderPlan.ofComposition, Composition.frameAt,
    List.filter_filterMap, List.filter_filterMap]
  refine List.rel_filterMap ?_ (List.forall₂_same.2 fun l _ => Eq.refl l)
  rintro l _ rfl
  exact layer_drawn composition ht scale selector l

/-- A title that is on screen from half a second to four seconds. -/
def greeting : Definition :=
  let title := (Layer.new "title" .text).withText (.token (.placeholder "title"))
  { Definition.new "greeting" "Greeting" 1080 1920 30 with
    layers := [title.withWindow 0.5 (some 4.0)] }

/-- The title is drawn up to the very end of its window. -/
theorem greeting_drawn_at_last :
    let composition :=
      Composition.ofDefinition greeting (Customization.empty.set "title" "Hello") .standard
    (4.0 : Float).isFinite ∧
      ((RenderPlan.ofComposition composition).enabledAt 4.0).map (·.layer) = ["title"] ∧
      List.Forall₂ (Overlay.Draws 0.5) ((RenderPlan.ofComposition composition).enabledAt 4.0)
        ((composition.frameAt 4.0 0.5 .standard).layers.filter (·.hasContent)) := by
  refine ⟨by decide, ?_, enabled_overlays_draw_frame _ _ _ 4.0 0.5 .standard (by decide)⟩
  simp only [Composition.ofDefinition, Resolution.ofDefinition, greeting, List.map_cons,
    List.map_nil, List.mergeSort_singleton]
  decide +kernel

end MotionTemplate
