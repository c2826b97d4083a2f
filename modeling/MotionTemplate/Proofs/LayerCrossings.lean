import Mathlib.Data.List.Induction
import MotionTemplate.Proofs.KeyMap
import MotionTemplate.Proofs.PreviewEvent

/-! Looking at a composition again and again. A tracker that is shown all of its layers at a time
tells of each what became of it since the look before, and counts the layers of the frame at that
time. It keeps a note for each id: so it depends on the layers having different ids. -/
namespace MotionTemplate

/-- What a tracker is used for: all layers are looked at, or all are forgotten. -/
inductive TrackerUse where
  | look (t : Float)
  | reset
deriving DecidableEq

/-- What a change says: whether the layer was visible at the look before, and whether it is now. -/
structure VisibilityChange.Tells (change : VisibilityChange) (before now : Bool) : Prop where
  entered : change = .entered ↔ before = false ∧ now = true
  steady : change = .steady ↔ before = true ∧ now = true
  exited : change = .exited ↔ before = true ∧ now = false
  hidden : change = .hidden ↔ before = false ∧ now = false

namespace VisibilityChange

/-- By this change the layer comes or goes. -/
def isCrossing : VisibilityChange → Bool
  | entered | exited => true
  | steady | hidden => false

/-- Coming and going in turn, beginning with the one that is possible. -/
def Alternates : (visible : Bool) → List VisibilityChange → Prop
  | _, [] => True
  | visible, change :: rest =>
    change = (if visible then exited else entered) ∧ Alternates (!visible) rest

theorem between_tells (before now : Bool) : (between before now).Tells before now := by
  cases before <;> cases now <;> constructor <;> decide

end VisibilityChange

namespace Composition

/-- The tracker after it was used. -/
def track (c : Composition) (v : VisibilityTracker) : TrackerUse → VisibilityTracker
  | .look t => (Previewer.observeAll v c t).1
  | .reset => .empty

/-- A new tracker after it was used for a while. -/
def tracked (c : Composition) (uses : List TrackerUse) : VisibilityTracker :=
  uses.foldl c.track .empty

/-- Whether a layer was visible at the look before, if that is not forgotten. -/
def wasVisible (c : Composition) (uses : List TrackerUse) (l : ResolvedLayer) : Bool :=
  match uses.getLast? with
  | some (.look t) => l.window.isVisible t c.duration
  | some .reset | none => false

/-- Everything that a tracker tells at some looks, one after the other. -/
def reports (c : Composition) (v : VisibilityTracker) :
    List Float → List (ResolvedLayer × VisibilityChange)
  | [] => []
  | t :: rest =>
    (Previewer.observeAll v c t).2 ++ c.reports (Previewer.observeAll v c t).1 rest

end Composition

/-- How the layer of an id comes and goes by what a tracker tells. -/
def crossings (id : String) (reports : List (ResolvedLayer × VisibilityChange)) :
    List VisibilityChange :=
  (reports.filter fun r => r.1.id = id && r.2.isCrossing).map (·.2)

open VisibilityTracker Previewer

/-- The notes of a tracker that is shown some layers. -/
private def noted (t duration : Float) (v : VisibilityTracker) (layers : List ResolvedLayer) :
    VisibilityTracker :=
  layers.foldl (fun v l => (v.observe l t duration).1) v

variable {c : Composition} {v : VisibilityTracker} {l : ResolvedLayer}

private theorem wasVisible_observe (v : VisibilityTracker) (l : ResolvedLayer)
    (t duration : Float) (id : String) :
    (v.observe l t duration).1.wasVisible id =
      if id = l.id then l.window.isVisible t duration else v.wasVisible id := by
  change ((v.seen.insert _ _).find? id).getD false = _
  rw [KeyMap.find?_insert]
  split <;> rfl

/-- What is told of layers with different ids does not depend on the notes that are made
meanwhile. -/
private theorem foldl_observe (t duration : Float) (v : VisibilityTracker)
    (told : List (ResolvedLayer × VisibilityChange)) {layers : List ResolvedLayer}
    (h : (layers.map (·.id)).Nodup) :
    layers.foldl (fun (v, told) l =>
        let (v, change) := v.observe l t duration
        (v, told ++ [(l, change)])) (v, told) =
      (noted t duration v layers, told ++ layers.map fun l =>
        (l, .between (v.wasVisible l.id) (l.window.isVisible t duration))) := by
  induction layers generalizing v told with
  | nil => simp only [List.foldl_nil, noted, List.map_nil, List.append_nil]
  | cons l rest ih =>
    obtain ⟨hfresh, hrest⟩ := List.nodup_cons.1 h
    have hothers : ∀ other ∈ rest,
        (v.observe l t duration).1.wasVisible other.id = v.wasVisible other.id := by
      intro other hmem
      rw [wasVisible_observe, if_neg]
      intro heq
      exact hfresh (List.mem_map.2 ⟨other, hmem, heq⟩)
    rw [List.foldl_cons]
    refine (ih (v.observe l t duration).1 (told ++ [(l, (v.observe l t duration).2)]) hrest).trans ?_
    rw [List.map_congr_left fun other hmem => by rw [hothers other hmem], List.append_assoc]
    rfl

private theorem observeAll_eq (h : (c.layers.map (·.id)).Nodup) (v : VisibilityTracker)
    (t : Float) :
    observeAll v c t = (noted t c.duration v c.layers, c.layers.map fun l =>
      (l, .between (v.wasVisible l.id) (l.window.isVisible t c.duration))) := by
  rw [observeAll, foldl_observe t c.duration v [] h, List.nil_append]

/-- The notes on the layers are new, and the others stay. -/
private theorem mem_noted (t duration : Float) {v : VisibilityTracker} {layers : List ResolvedLayer}
    (h : (layers.map (·.id)).Nodup) {e : String × Bool} :
    e ∈ (noted t duration v layers).seen.entries ↔
      e ∈ layers.map (fun l => (l.id, l.window.isVisible t duration)) ∨
        (e ∈ v.seen.entries ∧ e.1 ∉ layers.map (·.id)) := by
  induction layers generalizing v with
  | nil => simp [noted]
  | cons l rest ih =>
    obtain ⟨hfresh, hrest⟩ := List.nodup_cons.1 h
    have hcons : noted t duration v (l :: rest) =
        noted t duration (v.observe l t duration).1 rest := rfl
    have hseen : (v.observe l t duration).1.seen =
        v.seen.insert l.id (l.window.isVisible t duration) := rfl
    rw [hcons, ih hrest, hseen, KeyMap.mem_insert_iff, List.map_cons, List.map_cons, List.mem_cons,
      List.mem_cons]
    grind

/-- The notes of a tracker are about the layers of a composition, and say which were visible. -/
private structure Knows (v : VisibilityTracker) (c : Composition) (visible : ResolvedLayer → Bool) :
    Prop where
  names : ∀ e ∈ v.seen.entries, e.1 ∈ c.layers.map (·.id)
  visible : ∀ l ∈ c.layers, v.wasVisible l.id = visible l

variable {visible : ResolvedLayer → Bool}

/-- A look leaves one note for each layer. -/
private theorem notes_perm (hids : (c.layers.map (·.id)).Nodup) (h : Knows v c visible)
    (t : Float) :
    (noted t c.duration v c.layers).seen.entries.Perm
      (c.layers.map fun l => (l.id, l.window.isVisible t c.duration)) := by
  have hnotes := List.Nodup.of_map _ (noted t c.duration v c.layers).seen.names_nodup
  have hlayers : (c.layers.map fun l => (l.id, l.window.isVisible t c.duration)).Nodup := by
    apply List.Nodup.of_map (·.1)
    rw [List.map_map]
    exact hids
  refine (List.perm_ext_iff_of_nodup hnotes hlayers).2 fun e => ?_
  rw [mem_noted t c.duration hids]
  exact or_iff_left fun ⟨hmem, hother⟩ => hother (h.names e hmem)

private theorem knows_noted (hids : (c.layers.map (·.id)).Nodup) (h : Knows v c visible)
    (t : Float) :
    Knows (noted t c.duration v c.layers) c (·.window.isVisible t c.duration) := by
  have hperm := notes_perm hids h t
  constructor
  · intro e hmem
    obtain ⟨l, hl, rfl⟩ := List.mem_map.1 (hperm.mem_iff.1 hmem)
    exact List.mem_map_of_mem hl
  · intro l hl
    have hnote := hperm.mem_iff.2 (List.mem_map_of_mem hl)
    rw [wasVisible, KeyMap.find?_of_mem hnote]
    rfl

private theorem tracked_concat (c : Composition) (uses : List TrackerUse) (use : TrackerUse) :
    c.tracked (uses ++ [use]) = c.track (c.tracked uses) use := by
  rw [Composition.tracked, List.foldl_append]
  rfl

private theorem knows_tracked (hids : (c.layers.map (·.id)).Nodup) (uses : List TrackerUse) :
    Knows (c.tracked uses) c (c.wasVisible uses) := by
  induction uses using List.reverseRecOn with
  | nil => exact ⟨fun _ hmem => absurd hmem List.not_mem_nil, fun _ _ => rfl⟩
  | append_singleton uses use ih =>
    rw [tracked_concat]
    cases use with
    | look t =>
      have hwas : c.wasVisible (uses ++ [.look t]) = (·.window.isVisible t c.duration) := by
        funext l
        rw [Composition.wasVisible, List.getLast?_concat]
      rw [hwas, Composition.track, observeAll_eq hids]
      exact knows_noted hids ih t
    | reset =>
      have hwas : c.wasVisible (uses ++ [.reset]) = fun _ => false := by
        funext l
        rw [Composition.wasVisible, List.getLast?_concat]
      rw [hwas]
      exact ⟨fun _ hmem => absurd hmem List.not_mem_nil, fun _ _ => rfl⟩

private theorem length_frameAt (c : Composition) (t scale : Float)
    (selector : AnimationSelector Float) :
    (c.frameAt t scale selector).layers.length =
      c.layers.countP (·.window.isVisible t c.duration) := by
  rw [Composition.frameAt, List.length_filterMap_eq_countP]
  exact List.countP_congr fun l _ => by rw [FrameLayer.isSome_ofLayer?]

private theorem visibleCount_look (hids : (c.layers.map (·.id)).Nodup) (uses : List TrackerUse)
    (t scale : Float) (selector : AnimationSelector Float) :
    (observeAll (c.tracked uses) c t).1.visibleCount =
      (c.frameAt t scale selector).layers.length := by
  have hperm := (notes_perm hids (knows_tracked hids uses) t).map (·.2)
  rw [observeAll_eq hids, visibleCount, KeyMap.values, hperm.count_eq, List.map_map,
    List.count_eq_countP, List.countP_map, length_frameAt]
  exact List.countP_congr fun l _ => by simp

/-- With different ids a layer is found once by its own. -/
private theorem filter_id {layers : List ResolvedLayer} (hids : (layers.map (·.id)).Nodup)
    (hl : l ∈ layers) : layers.filter (·.id = l.id) = [l] := by
  induction layers with
  | nil => exact absurd hl List.not_mem_nil
  | cons other rest ih =>
    obtain ⟨hfresh, hrest⟩ := List.nodup_cons.1 hids
    rcases List.mem_cons.1 hl with rfl | hl
    · have hnone : rest.filter (·.id = l.id) = [] := by
        refine List.filter_eq_nil_iff.2 fun other hmem heq => ?_
        exact hfresh (List.mem_map.2 ⟨other, hmem, of_decide_eq_true heq⟩)
      rw [List.filter_cons, if_pos (decide_eq_true rfl), hnone]
    · have hne : other.id ≠ l.id := fun heq => hfresh (List.mem_map.2 ⟨l, hl, heq.symm⟩)
      rw [List.filter_cons, if_neg (by simpa using hne), ih hrest hl]

/-- At one look a layer comes, goes or does neither, and nothing else is told under its id. -/
private theorem crossings_observeAll (hids : (c.layers.map (·.id)).Nodup) (hl : l ∈ c.layers)
    (v : VisibilityTracker) (t : Float) :
    crossings l.id (observeAll v c t).2 =
      [VisibilityChange.between (v.wasVisible l.id) (l.window.isVisible t c.duration)].filter
        (·.isCrossing) := by
  rw [observeAll_eq hids, crossings, List.filter_map, List.map_map]
  have hsplit : c.layers.filter ((fun r : ResolvedLayer × VisibilityChange =>
        r.1.id = l.id && r.2.isCrossing) ∘ fun other => (other,
          .between (v.wasVisible other.id) (other.window.isVisible t c.duration))) =
      [l].filter fun other => (VisibilityChange.between (v.wasVisible other.id)
        (other.window.isVisible t c.duration)).isCrossing := by
    rw [← filter_id hids hl, List.filter_filter]
    exact List.filter_congr fun other _ => Bool.and_comm _ _
  rw [hsplit, List.filter_singleton, List.filter_singleton]
  cases (VisibilityChange.between (v.wasVisible l.id)
    (l.window.isVisible t c.duration)).isCrossing <;> rfl

private theorem crossings_append (id : String)
    (reports more : List (ResolvedLayer × VisibilityChange)) :
    crossings id (reports ++ more) = crossings id reports ++ crossings id more := by
  rw [crossings, List.filter_append, List.map_append]
  rfl

/-- Without a reset in between, a layer comes and goes in turn. -/
private theorem alternates_crossings (hids : (c.layers.map (·.id)).Nodup) (h : Knows v c visible)
    (hl : l ∈ c.layers) (times : List Float) :
    VisibilityChange.Alternates (visible l) (crossings l.id (c.reports v times)) := by
  induction times generalizing v visible with
  | nil => trivial
  | cons t rest ih =>
    have hrest := ih (knows_noted hids h t)
    have hnoted : (observeAll v c t).1 = noted t c.duration v c.layers := by
      rw [observeAll_eq hids]
    rw [Composition.reports, crossings_append, crossings_observeAll hids hl, h.visible l hl, hnoted]
    cases hbefore : visible l <;> cases hnow : l.window.isVisible t c.duration <;>
      rw [hnow] at hrest
    case false.false | true.true => exact hrest
    case false.true | true.false => exact ⟨rfl, hrest⟩

/-- A tracker of a composition whose layers have different ids agrees with the frames, whatever it
was used for before. At a look it tells of each layer whether that was visible at the look before,
unless it was reset since, and whether it is now, and then it counts the layers of the frame.
Without a reset in between each layer comes and goes in turn. -/
theorem tracker_agrees_with_frames {c : Composition} (hids : (c.layers.map (·.id)).Nodup)
    (uses : List TrackerUse) :
    (∀ t : Float,
      let look := observeAll (c.tracked uses) c t
      look.2.map (·.1) = c.layers ∧
        (∀ r ∈ look.2, r.2.Tells (c.wasVisible uses r.1) (r.1.window.isVisible t c.duration)) ∧
        ∀ (scale : Float) (selector : AnimationSelector Float),
          look.1.visibleCount = (c.frameAt t scale selector).layers.length) ∧
      ∀ l ∈ c.layers, ∀ times : List Float,
        VisibilityChange.Alternates (c.wasVisible uses l)
          (crossings l.id (c.reports (c.tracked uses) times)) := by
  have hknows := knows_tracked hids uses
  refine ⟨fun t => ⟨?_, fun r hr => ?_, visibleCount_look hids uses t⟩, fun l hl times => ?_⟩
  · rw [observeAll_eq hids, List.map_map]
    exact List.map_id _
  · rw [observeAll_eq hids] at hr
    obtain ⟨l, hl, rfl⟩ := List.mem_map.1 hr
    rw [← hknows.visible l hl]
    exact VisibilityChange.between_tells _ _
  · exact alternates_crossings hids hknows hl times

/-- A ground that is always visible, and a title from two to five seconds. -/
private def titled : Composition where
  template := "card"
  canvas := ⟨1080.0, 1920.0⟩
  fps := 30
  duration := 10.0
  theme := none
  layers :=
    [{ id := "ground", kind := .solid, window := ⟨0.0, .fullDuration⟩, z := 0, source := none,
       text := none, style := ∅, transform := ∅, animation := none, effects := [] },
     { id := "title", kind := .text, window := ⟨2.0, .fixed 5.0⟩, z := 1, source := none,
       text := none, style := ∅, transform := ∅, animation := none, effects := [] }]

/-- A title that was seen and forgotten, and is then scrubbed back to. It comes again, and goes and
comes in turn. -/
theorem title_agrees_with_frames :
    let uses : List TrackerUse := [.look 1.0, .look 3.0, .reset, .look 6.0]
    let look := observeAll (titled.tracked uses) titled 4.0
    (titled.layers.map (·.id)).Nodup ∧
      look.2.map (fun r => (r.1.id, r.2)) = [("ground", .steady), ("title", .entered)] ∧
      look.1.visibleCount = (titled.frameAt 4.0 1.0 .standard).layers.length ∧
      look.1.visibleCount = 2 ∧
      let told := titled.reports (titled.tracked uses) [4.0, 6.0, 3.0]
      crossings "title" told = [.entered, .exited, .entered] ∧
        ∀ l ∈ titled.layers,
          VisibilityChange.Alternates (titled.wasVisible uses l) (crossings l.id told) := by
  intro uses look
  have hids : (titled.layers.map (·.id)).Nodup := by decide
  obtain ⟨hlook, halternates⟩ := tracker_agrees_with_frames hids uses
  obtain ⟨-, -, hcount⟩ := hlook 4.0
  exact ⟨hids, by decide +kernel, hcount 1.0 .standard, by decide +kernel, by decide +kernel,
    fun l hl => halternates l hl [4.0, 6.0, 3.0]⟩

namespace Previewer

variable {p : Previewer}

/-- A tracker that was used for the composition of its previewer alone. -/
def Tracks (p : Previewer) : Prop := ∃ uses, p.tracker = p.composition.tracked uses

/-- A composition has layers of the ids that its definition has. -/
private theorem ids_ofDefinition (d : Definition) (c : Customization) (bounds : DurationBounds) :
    ((Composition.ofDefinition d c bounds).layers.map (·.id)).Perm (d.layers.map (·.id)) := by
  simp only [Composition.ofDefinition, Resolution.ofDefinition]
  refine ((List.mergeSort_perm _ _).map _).trans ?_
  rw [List.map_map, List.map_map]
  exact .refl _

/-- An edit makes a new tracker for the new composition, a frame is one more look, and nothing else
concerns the tracker. -/
private theorem tracks_meet (h : p.Tracks) (e : PreviewEvent) : (p.meet e).1.Tracks := by
  obtain ⟨uses, huses⟩ := h
  have hlook (t : Float) : (observeAll p.tracker p.composition t).1 =
      p.composition.tracked (uses ++ [.look t]) := by
    rw [tracked_concat, huses]
    rfl
  cases e with
  | tick now =>
    rw [meet_tick]
    split
    · exact ⟨_, hlook _⟩
    · exact ⟨uses, huses⟩
  | command now c =>
    cases c with
    | setCustomization | setTheme | setDuration | setPlaceholder => exact ⟨[], rfl⟩
    | scrubTo | frame => exact ⟨_, hlook _⟩
    | resize width =>
      obtain ⟨scale, hr⟩ := meet_resize p now width
      rw [hr]
      exact ⟨uses, huses⟩
    | _ => exact ⟨uses, huses⟩

private theorem tracks_after (h : p.Tracks) (events : List PreviewEvent) :
    (p.after events).Tracks := by
  induction events generalizing p with
  | nil => exact h
  | cons e rest ih => exact ih (tracks_meet h e)

private theorem visibleCount_meet (h : p.Tracks) (hids : (p.composition.layers.map (·.id)).Nodup)
    {e : PreviewEvent} {frame : Frame} (hframe : (p.meet e).2 = some frame) :
    (p.meet e).1.tracker.visibleCount = frame.layers.length := by
  obtain ⟨uses, huses⟩ := h
  have hlook (t : Float) : (observeAll p.tracker p.composition t).1.visibleCount =
      (p.composition.frameAt t p.scale.scale p.options.selector).layers.length := by
    rw [huses]
    exact visibleCount_look hids uses t _ _
  cases e with
  | tick now =>
    simp only [meet] at hframe ⊢
    split at hframe
    · next hm =>
      rw [if_pos hm]
      obtain rfl := Option.some.inj hframe
      exact hlook _
    · cases hframe
  | command now c =>
    cases c with
    | scrubTo | frame =>
      obtain rfl := Option.some.inj hframe
      exact hlook _
    | resize width =>
      obtain ⟨scale, hr⟩ := meet_resize p now width
      rw [hr] at hframe
      cases hframe
    | _ => cases hframe

/-- Whatever a preview of a definition with different ids meets, each time that it composes a frame
its tracker counts the layers of that frame. -/
theorem preview_counts_layers {d : Definition} {c : Customization} {options : PreviewOptions}
    (hmount : mount d c options = .ok p) (hids : (d.layers.map (·.id)).Nodup)
    (events : List PreviewEvent) {e : PreviewEvent} {frame : Frame}
    (hframe : ((p.after events).meet e).2 = some frame) :
    ((p.after events).meet e).1.tracker.visibleCount = frame.layers.length := by
  obtain ⟨scale, hp⟩ := mount_eq hmount
  have htracks : p.Tracks := ⟨[], by rw [hp]; rfl⟩
  have hfresh : p.Fresh := by rw [hp]; rfl
  have hdefinition : (p.after events).definition = d := by
    rw [(after_fixed p events).1, hp]
  refine visibleCount_meet (tracks_after htracks events) ?_ hframe
  rw [fresh_after hfresh events, (ids_ofDefinition _ _ _).nodup_iff, hdefinition]
  exact hids

end Previewer

end MotionTemplate
