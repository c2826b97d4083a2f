import MotionTemplate.Render.Frame
import MotionTemplate.Render.Plan

/-! The size of images. A preview takes the box of an image from `w` and `h`, or else from `width`
and `height`, and a plan from `w` and `h` alone. They agree unless a box with an extent owes a side
to the longer names; a plan then leaves the image its own size. -/
namespace MotionTemplate

/-- The width and height of a box. A box without an extent in both directions leaves its content
its own size. -/
def Rect.extent? (r : Rect) : Option (Float × Float) :=
  if 0.0 < r.w ∧ 0.0 < r.h then some (r.w, r.h) else none

namespace ResolvedLayer

/-- Both sides of the box are numbers under the short names. -/
def HasShortSides (l : ResolvedLayer) : Prop :=
  (l.transformNumber? "w").isSome ∧ (l.transformNumber? "h").isSome

variable {l : ResolvedLayer} {canvas : Size}

private theorem extent?_box_of_image (h : l.kind = .image) :
    (l.box canvas).extent? =
      let w := ((l.transformNumber? "w").or (l.transformNumber? "width")).getD 0.0
      let h := ((l.transformNumber? "h").or (l.transformNumber? "height")).getD 0.0
      if 0.0 < w ∧ 0.0 < h then some (w, h) else none := by
  simp only [Rect.extent?, box, h, LayerKind.fillsCanvas, Bool.false_eq_true, if_false]

private theorem imageSize?_of_shortSides (hk : l.kind = .image) (h : l.HasShortSides) :
    OverlayContent.imageSize? l = (l.box canvas).extent? := by
  obtain ⟨w, hw⟩ := Option.isSome_iff_exists.1 h.1
  obtain ⟨h, hh⟩ := Option.isSome_iff_exists.1 h.2
  simp only [extent?_box_of_image hk, OverlayContent.imageSize?, hw, hh, Option.some_or]

/-- A side without a number under its short name counts as zero. -/
private theorem imageSize?_of_not_shortSides (h : ¬ l.HasShortSides) :
    OverlayContent.imageSize? l = none := by
  have hzero : ¬ (0.0 : Float) < 0.0 := by decide
  rw [HasShortSides, Classical.not_and_iff_not_or_not, Option.not_isSome_iff_eq_none,
    Option.not_isSome_iff_eq_none] at h
  rcases h with h | h <;> simp [OverlayContent.imageSize?, h, hzero]

private theorem imageSize?_eq_extent?_iff (hk : l.kind = .image) :
    OverlayContent.imageSize? l = (l.box canvas).extent? ↔
      ((l.box canvas).extent?.isSome → l.HasShortSides) := by
  by_cases h : l.HasShortSides
  · exact iff_of_true (imageSize?_of_shortSides hk h) fun _ => h
  · rw [imageSize?_of_not_shortSides h, eq_comm, ← Option.not_isSome_iff_eq_none]
    exact ⟨fun hn hs => absurd hs hn, fun hs he => h (hs he)⟩

end ResolvedLayer

namespace RenderPlan

/-- The image of a plan has the extent of its preview's box exactly when that box has none, or has
both sides from the short names. Without those the image keeps its own size. -/
theorem image_sized_by_box_iff {c : Composition} {l : ResolvedLayer} {o : Overlay}
    (hl : l ∈ c.layers) (hk : l.kind = .image) (ho : Overlay.ofLayer? c.duration l = some o) :
    o ∈ (ofComposition c).overlays ∧ ∃ source size, o.content = .image source size ∧
      (size = (l.box c.canvas).extent? ↔
        ((l.box c.canvas).extent?.isSome → l.HasShortSides)) ∧
      (¬ l.HasShortSides → size = none) := by
  refine ⟨List.mem_filterMap.2 ⟨l, hl, ho⟩, ?_⟩
  obtain ⟨content, hcontent, rfl⟩ := Option.map_eq_some_iff.1 ho
  simp only [OverlayContent.ofLayer?, hk] at hcontent
  obtain ⟨source, -, rfl⟩ := Option.map_eq_some_iff.1 hcontent
  exact ⟨source, _, rfl, l.imageSize?_eq_extent?_iff hk, l.imageSize?_of_not_shortSides⟩

/-- A card with a logo of 200 by 100, under given names of the sides. -/
private def logoCard (w h : String) : Definition :=
  let logo := (Layer.new "logo" .image).withSource (.text "logo.png")
  { Definition.new "card" "Card" 1080 1920 30 with
    layers := [(logo.withTransform w (.number 200.0)).withTransform h (.number 100.0)] }

private def logoOf (w h : String) : ResolvedLayer :=
  ((Scope.ofDefinition (logoCard w h) .empty 15.0).trackLayer
    ((logoCard w h).layers.headD (Layer.new "" .image))).value

private theorem layers_logoCard (w h : String) :
    (Composition.ofDefinition (logoCard w h) .empty .standard).layers = [logoOf w h] := by
  simp only [Composition.ofDefinition, Resolution.ofDefinition, logoOf, logoCard, List.map_cons,
    List.map_nil, List.mergeSort_singleton, List.headD]
  rfl

/-- A logo with short sides is drawn in the box that its preview has. -/
theorem short_logo_sized_by_box :
    let c := Composition.ofDefinition (logoCard "w" "h") .empty .standard
    ∃ l ∈ c.layers, l.kind = .image ∧ (l.box c.canvas).extent? = some (200.0, 100.0) ∧
      ∃ o ∈ (ofComposition c).overlays, Overlay.ofLayer? c.duration l = some o ∧
        ∃ source, o.content = .image source (some (200.0, 100.0)) := by
  intro c
  have hl : logoOf "w" "h" ∈ c.layers := by
    rw [layers_logoCard]
    exact List.mem_cons_self
  have hbox : ((logoOf "w" "h").box c.canvas).extent? = some (200.0, 100.0) := by decide +kernel
  obtain ⟨o, ho⟩ : ∃ o, Overlay.ofLayer? c.duration (logoOf "w" "h") = some o :=
    Option.isSome_iff_exists.1 (by decide +kernel)
  obtain ⟨hmem, source, size, hcontent, hsize, -⟩ := image_sized_by_box_iff hl rfl ho
  obtain rfl := hsize.2 fun _ => ⟨by decide +kernel, by decide +kernel⟩
  exact ⟨_, hl, rfl, hbox, o, hmem, ho, source, hbox ▸ hcontent⟩

/-- Under the long names the preview has a box of 200 by 100, and the plan draws the image in its
own size. -/
theorem long_logo_keeps_own_size :
    ¬ ∀ (d : Definition) (c : Customization) (bounds : DurationBounds),
      let composition := Composition.ofDefinition d c bounds
      ∀ l ∈ composition.layers, l.kind = .image →
        ∀ o, Overlay.ofLayer? composition.duration l = some o →
          ∃ source, o.content = .image source (l.box composition.canvas).extent? := by
  intro h
  have hl : logoOf "width" "height" ∈
      (Composition.ofDefinition (logoCard "width" "height") .empty .standard).layers := by
    rw [layers_logoCard]
    exact List.mem_cons_self
  obtain ⟨o, ho⟩ : ∃ o, Overlay.ofLayer? 15.0 (logoOf "width" "height") = some o ∧
      o.content = .image "logo.png" none :=
    ⟨_, rfl, by decide +kernel⟩
  obtain ⟨source, hsize⟩ := h _ .empty .standard _ hl rfl o ho.1
  rw [ho.2] at hsize
  obtain ⟨-, hsize⟩ := OverlayContent.image.inj hsize
  exact absurd hsize (by decide +kernel)

end RenderPlan

end MotionTemplate
