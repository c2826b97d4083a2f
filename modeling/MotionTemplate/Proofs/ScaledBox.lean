import MotionTemplate.Proofs.LengthScaling
import MotionTemplate.Render.Frame

/-! The box and the transform of a layer in a frame. The box is taken from the transform and then
scaled, and the transform is scaled entry by entry: both ways lead to the same box, as long as no
length of it becomes too large. -/
namespace MotionTemplate

/-- The keys that the box of a layer is read from. -/
def boxKeys : List String := ["x", "y", "w", "h", "width", "height"]

/-- One number, or zero with either sign. -/
def SameNumber (a b : Float) : Prop := a = b ∨ (a == 0.0 ∧ b == 0.0)

/-- Two boxes, side by side. -/
structure Rect.Agrees (same : Float → Float → Prop) (a b : Rect) : Prop where
  x : same a.x b.x
  y : same a.y b.y
  w : same a.w b.w
  h : same a.h b.h

/-- Two boxes are the same, but for the sign of zeros under a factor that changes it. -/
def Rect.Matches (factor : Float) (a b : Rect) : Prop :=
  a.Agrees SameNumber b ∧ (0.0 * factor = 0.0 → a = b)

theorem Rect.agrees_eq_iff {a b : Rect} : a.Agrees Eq b ↔ a = b := by
  constructor
  · rintro ⟨hx, hy, hw, hh⟩
    cases a
    cases b
    simp_all
  · rintro rfl
    exact ⟨rfl, rfl, rfl, rfl⟩

namespace ResolvedLayer

/-- Every number that the box of a layer may be read from has a finite product with a factor. -/
def StaysFinite (l : ResolvedLayer) (factor : Float) : Prop :=
  ∀ key ∈ boxKeys, ∀ n, l.transformNumber? key = some n → (n * factor).isFinite

instance (l : ResolvedLayer) (factor : Float) : Decidable (l.StaysFinite factor) :=
  inferInstanceAs (Decidable (∀ key ∈ boxKeys, ∀ n ∈ l.transformNumber? key,
    (n * factor).isFinite))

/-- A layer with its transform scaled. -/
def scaledBy (l : ResolvedLayer) (factor : Float) : ResolvedLayer :=
  { l with transform := scaleMap factor l.transform }

variable {l : ResolvedLayer} {factor : Float}

private theorem transformNumber?_scaledBy (h : l.StaysFinite factor) {key : String}
    (hkey : key ∈ boxKeys) :
    (l.scaledBy factor).transformNumber? key = (l.transformNumber? key).map (· * factor) := by
  have hlength : key ∈ lengthKeys := by
    revert key
    decide
  have hfinite := h key hkey
  rw [transformNumber?] at hfinite ⊢
  rw [scaledBy, scaleMap, KeyMap.find?_mapWithKey]
  rw [transformNumber?]
  cases hentry : l.transform.find? key with
  | none => rfl
  | some j =>
    rw [hentry] at hfinite
    exact Json.numeric?_scaleEntry factor key hlength hfinite

section

variable {same : Float → Float → Prop} (hrefl : ∀ a, same a a)
include hrefl

/-- A number is multiplied wherever it comes from, an entry or a default. -/
private theorem getD_map_mul {default scaled : Float} (h : same scaled (default * factor))
    (o : Option Float) : same ((o.map (· * factor)).getD scaled) (o.getD default * factor) := by
  cases o with
  | none => exact h
  | some n => exact hrefl _

private theorem place_scaledBy (h : l.StaysFinite factor) (hzero : same 0.0 (0.0 * factor))
    {key : String} (hkey : key ∈ boxKeys) :
    same (((l.scaledBy factor).transformNumber? key).getD 0.0)
      ((l.transformNumber? key).getD 0.0 * factor) := by
  rw [transformNumber?_scaledBy h hkey]
  exact getD_map_mul hrefl hzero _

private theorem side_scaledBy (h : l.StaysFinite factor) {own scaled : Float}
    (hown : same scaled (own * factor)) {short long : String} (hshort : short ∈ boxKeys)
    (hlong : long ∈ boxKeys) :
    same ((((l.scaledBy factor).transformNumber? short).or
        ((l.scaledBy factor).transformNumber? long)).getD scaled)
      (((l.transformNumber? short).or (l.transformNumber? long)).getD own * factor) := by
  rw [transformNumber?_scaledBy h hshort, transformNumber?_scaledBy h hlong, ← Option.map_or]
  exact getD_map_mul hrefl hown _

/-- The size that a layer takes without sides is scaled with the canvas. -/
private theorem full_scaled (hzero : same 0.0 (0.0 * factor)) (fills : Bool) (canvas : Size) :
    let full : Size := if fills then canvas else ⟨0.0, 0.0⟩
    let scaled : Size := if fills then canvas.scaled factor else ⟨0.0, 0.0⟩
    same scaled.width (full.width * factor) ∧ same scaled.height (full.height * factor) := by
  cases fills with
  | false => exact ⟨hzero, hzero⟩
  | true => exact ⟨hrefl _, hrefl _⟩

/-- The two ways agree in every sense in which zero and its product with the factor are the same. -/
private theorem box_scaledBy (h : l.StaysFinite factor) (hzero : same 0.0 (0.0 * factor))
    (canvas : Size) :
    ((l.scaledBy factor).box (canvas.scaled factor)).Agrees same
      ((l.box canvas).scaled factor) := by
  obtain ⟨hwidth, hheight⟩ := full_scaled hrefl hzero l.kind.fillsCanvas canvas
  constructor
  case x => exact place_scaledBy hrefl h hzero (by decide)
  case y => exact place_scaledBy hrefl h hzero (by decide)
  case w => exact side_scaledBy hrefl h hwidth (by decide) (by decide)
  case h => exact side_scaledBy hrefl h hheight (by decide) (by decide)

end

/-- Nothing but its kind and its transform decides on the box of a layer. -/
theorem box_congr {l m : ResolvedLayer} (hkind : l.kind = m.kind)
    (htransform : l.transform = m.transform) (canvas : Size) : l.box canvas = m.box canvas := by
  simp only [box, transformNumber?, hkind, htransform]

end ResolvedLayer

open ResolvedLayer

/-- The box of a layer and its transform are scaled in step, if no length becomes too large and zero
stays zero: the box that the scaled transform describes on the scaled canvas is the scaled box. So
each layer of a frame has the box that its own transform describes in the container. -/
theorem box_agrees_with_transform {factor : Float} (hzero : 0.0 * factor == 0.0) :
    (∀ (l : ResolvedLayer) (canvas : Size), l.StaysFinite factor →
      ((l.scaledBy factor).box (canvas.scaled factor)).Matches factor
        ((l.box canvas).scaled factor)) ∧
    ∀ (c : Composition) (t : Float) (selector : AnimationSelector Float),
      let frame := c.frameAt t factor selector
      ∀ f ∈ frame.layers, ∃ l ∈ c.layers, FrameLayer.ofLayer? c t factor selector l = some f ∧
        (l.StaysFinite factor → ∀ shown : ResolvedLayer,
          shown.kind = f.kind → shown.transform = f.transform →
            (shown.box frame.container).Matches factor f.box) := by
  have hlayer (l : ResolvedLayer) (canvas : Size) (h : l.StaysFinite factor) :
      ((l.scaledBy factor).box (canvas.scaled factor)).Matches factor
        ((l.box canvas).scaled factor) := by
    constructor
    · exact box_scaledBy (fun a => .inl rfl) h (.inr ⟨by decide, hzero⟩) canvas
    · intro hplus
      exact Rect.agrees_eq_iff.1 (box_scaledBy (fun a => rfl) h hplus.symm canvas)
  refine ⟨hlayer, ?_⟩
  intro c t selector frame f hf
  obtain ⟨l, hl, hof⟩ := List.mem_filterMap.1 hf
  refine ⟨l, hl, hof, fun h shown hkind htransform => ?_⟩
  obtain ⟨elapsed, -, rfl⟩ := Option.map_eq_some_iff.1 hof
  rw [box_congr (m := l.scaledBy factor) hkind htransform]
  exact hlayer l c.canvas h

/-- A film with a width in words and a height of its own, at a place that is no number. -/
private def film : ResolvedLayer where
  id := "film"
  kind := .video
  window := ⟨0.0, .fullDuration⟩
  z := 0
  source := some (.string "film.mp4")
  text := none
  style := ∅
  transform := .ofList [("x", .number (.whole 440)), ("y", .string "top"), ("width", .string "200")]
  animation := none
  effects := []

/-- At half the size the film has half its width, half the height of the canvas, and half the
distance from the left. -/
theorem film_agrees_with_transform :
    (0.0 * 0.5 : Float) == 0.0 ∧ film.StaysFinite 0.5 ∧
      (film.scaledBy 0.5).box ((Size.mk 1080.0 1920.0).scaled 0.5) = ⟨220.0, 0.0, 100.0, 960.0⟩ ∧
      (film.box ⟨1080.0, 1920.0⟩).scaled 0.5 = ⟨220.0, 0.0, 100.0, 960.0⟩ := by
  have hzero : (0.0 * 0.5 : Float) == 0.0 := by decide
  have hfinite : film.StaysFinite 0.5 := by decide +kernel
  obtain ⟨hlayer, -⟩ := box_agrees_with_transform hzero
  obtain ⟨-, heq⟩ := hlayer film ⟨1080.0, 1920.0⟩ hfinite
  have hbox : (film.box ⟨1080.0, 1920.0⟩).scaled 0.5 = ⟨220.0, 0.0, 100.0, 960.0⟩ := by
    decide +kernel
  exact ⟨hzero, hfinite, (heq (by decide)).trans hbox, hbox⟩

end MotionTemplate
