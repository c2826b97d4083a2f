import MotionTemplate.Proofs.SavedDefinition

/-! What validation accepts: the definitions that are well-formed, given that literal times are
finite, as those of every text are. The layers are scanned with the ids that came before them, so
that an id is refused wherever it is repeated. -/
namespace MotionTemplate

namespace Layer

/-- The times that are literals at the edges of a layer's window are finite. -/
def BoundedEdges (l : Layer) : Prop :=
  (∀ secs, l.start.float? = some secs → secs.isFinite) ∧
    ∀ secs, l.finish.float? = some secs → secs.isFinite

private theorem any_unbounded_eq_false_iff (v : Value) :
    v.float?.any (!·.isFinite) = false ↔ ∀ secs, v.float? = some secs → secs.isFinite := by
  cases v.float? <;> simp

theorem unboundedEdge?_eq_none_iff {l : Layer} : l.unboundedEdge? = none ↔ l.BoundedEdges := by
  rw [BoundedEdges, ← any_unbounded_eq_false_iff, ← any_unbounded_eq_false_iff]
  cases hstart : l.start.float?.any (!·.isFinite) <;>
    cases hfinish : l.finish.float?.any (!·.isFinite) <;>
    simp [unboundedEdge?, hstart, hfinish]

end Layer

namespace Definition

/-- What makes a definition usable, apart from the times in it. -/
structure WellFormed (d : Definition) : Prop where
  width : d.width ≠ 0
  height : d.height ≠ 0
  fps : d.fps ≠ 0
  presets : d.durationPresets ≠ []
  positive : ∀ secs ∈ d.durationPresets, secs.isFinite ∧ 0 < secs
  named : ∀ l ∈ d.layers, l.id ≠ ""
  distinct : (d.layers.map (·.id)).Nodup

private theorem layerFlaw?_cons_eq_none_iff {seen : List String} {l : Layer} {rest : List Layer} :
    layerFlaw? seen (l :: rest) = none ↔
      l.id ≠ "" ∧ l.id ∉ seen ∧ l.BoundedEdges ∧ layerFlaw? (l.id :: seen) rest = none := by
  rw [layerFlaw?, ← Layer.unboundedEdge?_eq_none_iff]
  split_ifs with hname hseen
  · exact iff_of_false nofun fun h => h.1 hname
  · exact iff_of_false nofun fun h => h.2.1 hseen
  · cases l.unboundedEdge? with
    | some edge => exact iff_of_false nofun fun h => nomatch h.2.2.1
    | none => exact ⟨fun h => ⟨hname, hseen, rfl, h⟩, fun h => h.2.2.2⟩

/-- A scan that knows some ids finds no flaw when the layers bring new ones, each of them once. -/
private theorem layerFlaw?_eq_none_iff {seen : List String} {layers : List Layer} :
    layerFlaw? seen layers = none ↔
      (∀ l ∈ layers, l.id ≠ "") ∧ (layers.map (·.id)).Nodup ∧
        (∀ id ∈ layers.map (·.id), id ∉ seen) ∧ ∀ l ∈ layers, l.BoundedEdges := by
  induction layers generalizing seen with
  | nil => simp [layerFlaw?]
  | cons l rest ih =>
    rw [layerFlaw?_cons_eq_none_iff, ih, List.map_cons, List.nodup_cons, List.forall_mem_cons,
      List.forall_mem_cons, List.forall_mem_cons]
    simp only [List.mem_cons, not_or]
    constructor
    · rintro ⟨hname, hseen, hedges, hnames, hnodup, hnew, hall⟩
      refine ⟨⟨hname, hnames⟩, ⟨fun hmem => ?_, hnodup⟩, ⟨hseen, fun id hid => ?_⟩, hedges, hall⟩
      · exact (hnew _ hmem).1 rfl
      · exact (hnew id hid).2
    · rintro ⟨⟨hname, hnames⟩, ⟨hfresh, hnodup⟩, ⟨hseen, hnew⟩, hedges, hall⟩
      refine ⟨hname, hseen, hedges, hnames, hnodup, fun id hid => ⟨?_, hnew id hid⟩, hall⟩
      rintro rfl
      exact hfresh hid

private theorem find?_unusable_eq_none_iff {presets : List Float} :
    presets.find? (!usablePreset ·) = none ↔ ∀ secs ∈ presets, secs.isFinite ∧ 0 < secs := by
  rw [List.find?_eq_none]
  refine forall₂_congr fun secs _ => ?_
  rw [Bool.not_eq_true, Bool.not_eq_false', usablePreset, Bool.and_eq_true, decide_eq_true_iff]
  exact Iff.rfl

/-- The checks of a definition, in the order in which they are made. -/
private theorem flaw?_eq_none_iff {d : Definition} :
    d.flaw? = none ↔ ¬ (d.width = 0 ∨ d.height = 0) ∧ d.fps ≠ 0 ∧ d.durationPresets ≠ [] ∧
      (∀ secs ∈ d.durationPresets, secs.isFinite ∧ 0 < secs) ∧ layerFlaw? [] d.layers = none := by
  rw [flaw?, ← find?_unusable_eq_none_iff]
  split_ifs with hcanvas hfps hnil
  · exact iff_of_false nofun fun h => h.1 hcanvas
  · exact iff_of_false nofun fun h => h.2.1 hfps
  · exact iff_of_false nofun fun h => h.2.2.1 hnil
  · cases d.durationPresets.find? (!usablePreset ·) with
    | some secs => exact iff_of_false nofun fun h => nomatch h.2.2.2.1
    | none => exact ⟨fun h => ⟨hcanvas, hfps, hnil, rfl, h⟩, fun h => h.2.2.2.2⟩

theorem validate_eq_ok_iff {d : Definition} :
    d.validate = .ok () ↔ d.WellFormed ∧ ∀ l ∈ d.layers, l.BoundedEdges := by
  have hflaw : d.validate = .ok () ↔ d.flaw? = none := by
    rw [validate]
    cases d.flaw? <;> simp
  rw [hflaw, flaw?_eq_none_iff, layerFlaw?_eq_none_iff, not_or]
  constructor
  · rintro ⟨⟨hwidth, hheight⟩, hfps, hnil, hpositive, hnamed, hdistinct, -, hedges⟩
    exact ⟨⟨hwidth, hheight, hfps, hnil, hpositive, hnamed, hdistinct⟩, hedges⟩
  · rintro ⟨⟨hwidth, hheight, hfps, hnil, hpositive, hnamed, hdistinct⟩, hedges⟩
    exact ⟨⟨hwidth, hheight⟩, hfps, hnil, hpositive, hnamed, hdistinct,
      fun _ _ => List.not_mem_nil, hedges⟩

end Definition

private theorem writable_of_mem {fields : List (String × Json)} {f : String × Json}
    (h : (Json.object fields).Writable) (hf : f ∈ fields) : f.2.Writable := by
  cases h with
  | object hfields => exact hfields f hf

/-- A literal that a text can hold is no infinite number. -/
private theorem isFinite_of_writable {v : Value} (h : v.toJson.Writable) {secs : Float}
    (hv : v.float? = some secs) : secs.isFinite := by
  cases v with
  | literal j =>
    cases j with
    | number n =>
      obtain rfl := Option.some.inj hv
      have hsound : (Json.number n).Sound := by
        cases h with
        | number hn => exact .number hn
      have hread : Decoder.float 0 (.number n) = some n.toFloat := rfl
      exact Decoder.isFinite_of_float hsound hread
    | _ => exact nomatch hv
  | _ => exact nomatch hv

namespace Definition

private theorem boundedEdges_of_writable {l : Layer} (h : l.toJson.Writable) : l.BoundedEdges := by
  constructor
  · intro secs hsecs
    exact isFinite_of_writable (writable_of_mem h (f := ("start", l.start.toJson)) (by simp)) hsecs
  · intro secs hsecs
    exact isFinite_of_writable (writable_of_mem h (f := ("end", l.finish.toJson)) (by simp)) hsecs

/-- A definition holds what its own text holds, and a text has no infinite number. -/
theorem boundedEdges_of_decode? {text : String} {d : Definition}
    (h : Json.decode? decoder text = some d) : ∀ l ∈ d.layers, l.BoundedEdges := by
  obtain ⟨j, hj, hd⟩ := Option.bind_eq_some_iff.1 h
  have hwritten := rereads (by decide) (Json.sound_of_parse? hj) hd
  have hlayers : (Json.ofList Layer.toJson d.layers).Writable :=
    writable_of_mem hwritten.writable (f := ("layers", .ofList Layer.toJson d.layers)) (by simp)
  cases hlayers with
  | array hall =>
    intro l hl
    exact boundedEdges_of_writable (hall _ (List.mem_map_of_mem hl))

/-- Validation accepts of the definitions that texts hold exactly the well-formed ones. -/
theorem validate_iff_wellFormed {text : String} {d : Definition}
    (h : Json.decode? decoder text = some d) : d.validate = .ok () ↔ d.WellFormed := by
  rw [validate_eq_ok_iff]
  exact and_iff_left (boundedEdges_of_decode? h)

/-- A card whose last layer has the name of its first one. -/
private def twins : String :=
  "\x7b\"id\":\"card\",\"name\":\"Card\",\"width\":9,\"height\":16,\"layers\":[[\"title\",\"text\"],"
    ++ "[\"logo\",\"image\",0.5,2],[\"title\",\"text\",2]]\x7d"

theorem twins_not_wellFormed :
    ∃ d, Json.decode? decoder twins = some d ∧
      d.validate = .error (.duplicateLayer "title") ∧ ¬ d.WellFormed := by
  have hruns : (Json.decode? decoder twins).map (·.validate) =
      some (.error (.duplicateLayer "title")) := by decide +kernel
  obtain ⟨d, hd, hflaw⟩ := Option.map_eq_some_iff.1 hruns
  refine ⟨d, hd, hflaw, fun hwell => ?_⟩
  have hvalid := (validate_iff_wellFormed hd).2 hwell
  exact nomatch hflaw.symm.trans hvalid

end Definition

end MotionTemplate
