import Mathlib.Data.List.Basic
import MotionTemplate.Render.Frame
import MotionTemplate.Render.Plan

/-! The stacking order. A composition has all the layers of its definition, each resolved for
itself, from bottom to top. Frames and render plans show some of them and keep that order. -/
namespace MotionTemplate

/-- Layers from bottom to top: those that are declared, each as often as it is, in ascending `z`,
and those of one `z` in the order of their declaration. -/
structure StackingOrder (declared layers : List ResolvedLayer) : Prop where
  perm : layers.Perm declared
  ascending : layers.Pairwise (·.z ≤ ·.z)
  ties : ∀ z : Int, layers.filter (·.z = z) = declared.filter (·.z = z)

/-- What a layer is recognized by in a frame and in a render plan. -/
def ResolvedLayer.mark (l : ResolvedLayer) : String × Int := (l.id, l.z)

/-- The same of a layer as it is declared. -/
def Layer.mark (l : Layer) : String × Int := (l.id, l.z)

@[simp] theorem Scope.mark_trackLayer (s : Scope) (l : Layer) :
    (s.trackLayer l).value.mark = l.mark := rfl

@[simp] theorem Scope.z_trackLayer (s : Scope) (l : Layer) : (s.trackLayer l).value.z = l.z := rfl

/-- Marks of the layers that are kept of a stack. None of these is missing and none comes twice, and
the order is the stacking order. -/
structure KeepsOrder (declared layers : List ResolvedLayer) (kept : ResolvedLayer → Bool)
    (marks : List (String × Int)) : Prop where
  marks_eq : marks = (layers.filter kept).map ResolvedLayer.mark
  ascending : marks.Pairwise (·.2 ≤ ·.2)
  ties : ∀ z : Int, marks.filter (·.2 = z) =
    (declared.filter fun l => kept l && l.z = z).map ResolvedLayer.mark

private theorem z_trans (a b c : ResolvedLayer) (hab : decide (a.z ≤ b.z) = true)
    (hbc : decide (b.z ≤ c.z) = true) : decide (a.z ≤ c.z) = true := by
  rw [decide_eq_true_iff] at *
  exact Int.le_trans hab hbc

private theorem z_total (a b : ResolvedLayer) :
    (decide (a.z ≤ b.z) || decide (b.z ≤ a.z)) = true := by
  rw [Bool.or_eq_true, decide_eq_true_iff, decide_eq_true_iff]
  exact Int.le_total a.z b.z

/-- Sorting keeps the order of what is in order already, as layers of one `z` are. -/
private theorem mergeSort_ties (declared : List ResolvedLayer) (z : Int) :
    (declared.mergeSort fun a b => a.z ≤ b.z).filter (·.z = z) = declared.filter (·.z = z) := by
  have hsorted : (declared.filter (·.z = z)).Pairwise fun a b => decide (a.z ≤ b.z) = true := by
    refine List.pairwise_of_forall_mem_list fun a ha b hb => ?_
    have haz : a.z = z := by simpa using (List.mem_filter.1 ha).2
    have hbz : b.z = z := by simpa using (List.mem_filter.1 hb).2
    exact decide_eq_true (by omega)
  have hsub : (declared.filter (·.z = z)).Sublist (declared.mergeSort fun a b => a.z ≤ b.z) :=
    List.sublist_mergeSort z_trans z_total hsorted List.filter_sublist
  have hfiltered := hsub.filter (·.z = z)
  simp only [List.filter_filter, Bool.and_self] at hfiltered
  have hperm := (List.mergeSort_perm declared fun a b => a.z ≤ b.z).filter (·.z = z)
  exact (hfiltered.eq_of_length hperm.length_eq.symm).symm

theorem stackingOrder_mergeSort (declared : List ResolvedLayer) :
    StackingOrder declared (declared.mergeSort fun a b => a.z ≤ b.z) where
  perm := List.mergeSort_perm _ _
  ascending := (List.pairwise_mergeSort z_trans z_total declared).imp of_decide_eq_true
  ties := mergeSort_ties declared

theorem stackingOrder_ofDefinition (d : Definition) (c : Customization) (bounds : DurationBounds) :
    let composition := Composition.ofDefinition d c bounds
    let scope := Scope.ofDefinition d c composition.duration
    StackingOrder (d.layers.map fun l => (scope.trackLayer l).value) composition.layers := by
  intro composition scope
  have hlayers : composition.layers =
      (d.layers.map fun l => (scope.trackLayer l).value).mergeSort fun a b => a.z ≤ b.z := by
    simp only [composition, scope, Composition.ofDefinition, Resolution.ofDefinition,
      List.map_map]
    rfl
  rw [hlayers]
  exact stackingOrder_mergeSort _

/-- Resolving changes neither the id nor the `z` of a layer, so what is stacked by the resolved `z`
is stacked by the declared one. -/
theorem StackingOrder.declared_marks {s : Scope} {declared : List Layer}
    {layers : List ResolvedLayer}
    (h : StackingOrder (declared.map fun l => (s.trackLayer l).value) layers) :
    (layers.map ResolvedLayer.mark).Perm (declared.map Layer.mark) ∧
      ∀ z : Int, (layers.filter (·.z = z)).map ResolvedLayer.mark =
        (declared.filter (·.z = z)).map Layer.mark := by
  constructor
  · have hperm := h.perm.map ResolvedLayer.mark
    simpa only [List.map_map, Function.comp_def, Scope.mark_trackLayer] using hperm
  · intro z
    rw [h.ties z]
    simp only [List.filter_map, List.map_map, Function.comp_def, Scope.mark_trackLayer,
      Scope.z_trackLayer]
    rfl

/-- By id and `z`, the layers of a composition are those that the definition declares, and of one
`z` they come in the order of their declaration. -/
theorem layers_stacked_as_declared (d : Definition) (c : Customization) (bounds : DurationBounds) :
    let layers := (Composition.ofDefinition d c bounds).layers
    (layers.map ResolvedLayer.mark).Perm (d.layers.map Layer.mark) ∧
      ∀ z : Int, (layers.filter (·.z = z)).map ResolvedLayer.mark =
        (d.layers.filter (·.z = z)).map Layer.mark :=
  (stackingOrder_ofDefinition d c bounds).declared_marks

/-- What is made of the layers that are kept, one by one, keeps their order. -/
theorem StackingOrder.keepsOrder {declared layers : List ResolvedLayer}
    (h : StackingOrder declared layers) (kept : ResolvedLayer → Bool) :
    KeepsOrder declared layers kept ((layers.filter kept).map ResolvedLayer.mark) where
  marks_eq := rfl
  ascending := List.pairwise_map.2 (h.ascending.filter kept)
  ties z := by
    have hfilter : (layers.filter kept).filter (·.z = z) =
        declared.filter fun l => kept l && l.z = z := by
      rw [List.filter_filter, List.filter_congr (fun l _ => Bool.and_comm _ _),
        ← List.filter_filter, h.ties z, List.filter_filter]
    rw [List.filter_map, ← hfilter]
    rfl

private theorem map_filterMap_eq {α β γ : Type} {f : α → Option β} {kept : α → Bool} {g : β → γ}
    {mark : α → γ} (h : ∀ a, (f a).map g = if kept a then some (mark a) else none) (l : List α) :
    (l.filterMap f).map g = (l.filter kept).map mark := by
  rw [List.map_filterMap, ← List.filterMap_eq_map, List.filterMap_filter]
  exact List.filterMap_congr fun a _ => h a

private theorem frame_marks (c : Composition) (t scale : Float)
    (selector : AnimationSelector Float) :
    (c.frameAt t scale selector).layers.map (fun f => (f.id, f.z)) =
      (c.layers.filter (·.window.isVisible t c.duration)).map ResolvedLayer.mark := by
  refine map_filterMap_eq (fun l => ?_) c.layers
  rw [FrameLayer.ofLayer?, Window.elapsed?]
  split <;> rfl

private theorem plan_marks (c : Composition) :
    (RenderPlan.ofComposition c).overlays.map (fun o => (o.layer, o.z)) =
      (c.layers.filter fun l => (OverlayContent.ofLayer? l).isSome).map ResolvedLayer.mark := by
  refine map_filterMap_eq (fun l => ?_) c.layers
  rw [Overlay.ofLayer?]
  cases OverlayContent.ofLayer? l <;> rfl

/-- The layers of a composition are those of the definition, each resolved for itself, in stacking
order. Every frame shows the ones that are visible at its time in that order, and a render plan has
overlays in it for the ones with content. -/
theorem layers_keep_stacking_order (d : Definition) (c : Customization) (bounds : DurationBounds) :
    let composition := Composition.ofDefinition d c bounds
    let scope := Scope.ofDefinition d c composition.duration
    let declared := d.layers.map fun l => (scope.trackLayer l).value
    StackingOrder declared composition.layers ∧
      (∀ (t scale : Float) (selector : AnimationSelector Float),
        KeepsOrder declared composition.layers (·.window.isVisible t composition.duration)
          ((composition.frameAt t scale selector).layers.map fun f => (f.id, f.z))) ∧
      KeepsOrder declared composition.layers (fun l => (OverlayContent.ofLayer? l).isSome)
        ((RenderPlan.ofComposition composition).overlays.map fun o => (o.layer, o.z)) := by
  intro composition scope declared
  have hstack : StackingOrder declared composition.layers := stackingOrder_ofDefinition d c bounds
  refine ⟨hstack, fun t scale selector => ?_, ?_⟩
  · rw [frame_marks]
    exact hstack.keepsOrder _
  · rw [plan_marks]
    exact hstack.keepsOrder _

end MotionTemplate
