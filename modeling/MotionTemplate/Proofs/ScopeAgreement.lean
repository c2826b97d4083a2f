import Mathlib.Data.List.Basic
import MotionTemplate.Composition.Resolution
import MotionTemplate.Template.Starter

/-! What a layer depends on. A scope bears on a layer only through the tokens that are listed for it,
so another theme changes no layer without theme tokens. -/
namespace MotionTemplate

namespace Scope

/-- Two scopes give each of some tokens the same literal, and both take it for the token's own or
both for a fallback. -/
def AgreesOn (s s' : Scope) (tokens : List Token) : Prop :=
  ∀ t ∈ tokens, s.resolveToken t = s'.resolveToken t

variable {s s' : Scope}

private theorem agreesOn_append {first second : List Token} :
    s.AgreesOn s' (first ++ second) ↔ s.AgreesOn s' first ∧ s.AgreesOn s' second :=
  List.forall_mem_append

private theorem agreesOn_flatMap {values : List Value} :
    s.AgreesOn s' (values.flatMap Value.tokens) ↔ ∀ v ∈ values, s.AgreesOn s' v.tokens := by
  simp only [AgreesOn, List.mem_flatMap]
  grind

mutual

private theorem track_eq : ∀ v : Value, s.AgreesOn s' v.tokens → s.track v = s'.track v
  | .token t, h => by
    have ht : s.resolveToken t = s'.resolveToken t := h t List.mem_cons_self
    simp only [track, ht]
  | .literal _, _ => rfl
  | .array items, h => by simp only [track, trackItems_eq items h]
  | .object fields, h => by simp only [track, trackFields_eq fields h]

private theorem trackItems_eq : ∀ items : List Value,
    s.AgreesOn s' (Value.itemTokens items) → s.trackItems items = s'.trackItems items
  | [], _ => rfl
  | v :: rest, h => by
    obtain ⟨hv, hrest⟩ := agreesOn_append.1 h
    simp only [trackItems, track_eq v hv, trackItems_eq rest hrest]

private theorem trackFields_eq : ∀ fields : List (String × Value),
    s.AgreesOn s' (Value.fieldTokens fields) → s.trackFields fields = s'.trackFields fields
  | [], _ => rfl
  | (_, v) :: rest, h => by
    obtain ⟨hv, hrest⟩ := agreesOn_append.1 h
    simp only [trackFields, track_eq v hv, trackFields_eq rest hrest]

end

private theorem trackOption_eq {v : Option Value} (h : ∀ w ∈ v, s.AgreesOn s' w.tokens) :
    s.trackOption v = s'.trackOption v := by
  cases v with
  | none => rfl
  | some v => simp only [trackOption, track_eq v (h v rfl)]

private theorem resolve_eq {v : Value} (h : s.AgreesOn s' v.tokens) :
    s.resolve v = s'.resolve v := by
  rw [resolve, track_eq v h, ← resolve]

private theorem flatMap_missed_eq {values : List Value}
    (h : ∀ v ∈ values, s.AgreesOn s' v.tokens) :
    values.flatMap (fun v => (s.track v).missed) = values.flatMap fun v => (s'.track v).missed :=
  List.flatMap_congr fun v hv => by rw [track_eq v (h v hv)]

private theorem trackMap_eq {m : KeyMap Value} (h : ∀ v ∈ m.values, s.AgreesOn s' v.tokens) :
    s.trackMap m = s'.trackMap m := by
  have hentries : m.map s.resolve = m.map s'.resolve := by
    apply KeyMap.ext
    apply List.map_congr_left
    intro e he
    exact congrArg (Prod.mk e.1) (resolve_eq (h e.2 (List.mem_map_of_mem he)))
  rw [trackMap, trackMap, hentries, flatMap_missed_eq h]

/-- Two scopes agree on every value in the fields of a layer. -/
private structure AgreesOnFields (s s' : Scope) (l : Layer) : Prop where
  start : s.AgreesOn s' l.start.tokens
  finish : s.AgreesOn s' l.finish.tokens
  source : ∀ v ∈ l.source, s.AgreesOn s' v.tokens
  text : ∀ v ∈ l.text, s.AgreesOn s' v.tokens
  style : ∀ v ∈ l.style.values, s.AgreesOn s' v.tokens
  transform : ∀ v ∈ l.transform.values, s.AgreesOn s' v.tokens
  effects : ∀ v ∈ l.effects, s.AgreesOn s' v.tokens

/-- The tokens listed for a layer are those of all its fields. -/
private theorem AgreesOn.fields {l : Layer} (h : s.AgreesOn s' l.tokens) :
    AgreesOnFields s s' l := by
  simp only [Layer.tokens, agreesOn_append, agreesOn_flatMap, List.forall_mem_append,
    Option.mem_toList] at h
  obtain ⟨⟨⟨⟨hstart, hfinish⟩, hsource, htext⟩, hstyle, htransform⟩, heffects⟩ := h
  exact ⟨hstart, hfinish, hsource, htext, hstyle, htransform, heffects⟩

theorem trackLayer_eq_of_agreesOn {l : Layer} (h : s.AgreesOn s' l.tokens) :
    s.trackLayer l = s'.trackLayer l := by
  have hl := h.fields
  have hstart : s.trackStart l = s'.trackStart l := by simp only [trackStart, track_eq _ hl.start]
  have hfinish : s.trackFinish l = s'.trackFinish l := by
    simp only [trackFinish, track_eq _ hl.finish]
  have heffects : l.effects.map s.resolve = l.effects.map s'.resolve :=
    List.map_congr_left fun v hv => resolve_eq (hl.effects v hv)
  simp only [trackLayer, hstart, hfinish, trackOption_eq hl.source, trackOption_eq hl.text,
    trackMap_eq hl.style, trackMap_eq hl.transform, heffects, flatMap_missed_eq hl.effects]

theorem edgeIssues_eq_of_agreesOn {l : Layer} (h : s.AgreesOn s' l.tokens) :
    s.edgeIssues l = s'.edgeIssues l := by
  have hl := h.fields
  simp only [edgeIssues, resolve_eq hl.start, resolve_eq hl.finish]

end Scope

/-- A token that only a theme has a literal for. -/
def Token.isTheme : Token → Bool
  | .themeColor _ | .themeFont _ => true
  | .currentDuration | .placeholder _ => false

/-- What a layer is apart from the values that a scope resolves. -/
structure LayerOutline where
  id : String
  kind : LayerKind
  z : Int
  animation : Option (AnimationSpec Float)
deriving DecidableEq

def Layer.outline (l : Layer) : LayerOutline := ⟨l.id, l.kind, l.z, l.primaryAnimation?⟩

def ResolvedLayer.outline (l : ResolvedLayer) : LayerOutline := ⟨l.id, l.kind, l.z, l.animation⟩

/-- The layers as they are drawn: in ascending `z`, equal ones in the order of declaration. -/
def Definition.drawn (d : Definition) : List Layer := d.layers.mergeSort fun a b => a.z ≤ b.z

/-- Layers may be resolved before they are put in order or after. -/
theorem Composition.layers_ofDefinition (d : Definition) (c : Customization)
    (bounds : DurationBounds) :
    (Composition.ofDefinition d c bounds).layers = d.drawn.map fun l =>
      ((Scope.ofDefinition d c (c.effectiveDuration d bounds)).trackLayer l).value := by
  simp only [Composition.ofDefinition, Resolution.ofDefinition, Definition.drawn, List.map_map]
  symm
  apply List.map_mergeSort
  intro a _ b _
  rfl

namespace Customization

variable {c c' : Customization}

/-- Two customizations are the same but for the theme they ask for. -/
structure SameButTheme (c c' : Customization) : Prop where
  duration : c'.duration = c.duration
  values : c'.values = c.values

theorem SameButTheme.effectiveDuration (h : c.SameButTheme c') (d : Definition)
    (bounds : DurationBounds) : c'.effectiveDuration d bounds = c.effectiveDuration d bounds := by
  simp only [Customization.effectiveDuration, h.duration]

theorem SameButTheme.resolveToken (h : c.SameButTheme c') (d : Definition) (secs : Float)
    {t : Token} (ht : t.isTheme = false) :
    (Scope.ofDefinition d c secs).resolveToken t =
      (Scope.ofDefinition d c' secs).resolveToken t := by
  cases t with
  | currentDuration => rfl
  | themeColor | themeFont => exact nomatch ht
  | placeholder id => simp only [Scope.resolveToken, Scope.ofDefinition, value?, h.values]

end Customization

/-- Scopes that agree on the tokens listed for a layer resolve it alike and miss the same. Under
another theme a composition has the same layers in the same order, and those without theme tokens
are the same in everything. -/
theorem Scope.layer_depends_on_tokens :
    (∀ (s s' : Scope) (l : Layer), s.AgreesOn s' l.tokens →
      s.trackLayer l = s'.trackLayer l ∧ s.edgeIssues l = s'.edgeIssues l) ∧
    ∀ (d : Definition) (c c' : Customization) (bounds : DurationBounds), c.SameButTheme c' →
      let a := Composition.ofDefinition d c bounds
      let b := Composition.ofDefinition d c' bounds
      a.duration = b.duration ∧
        a.layers.map ResolvedLayer.outline = d.drawn.map Layer.outline ∧
        b.layers.map ResolvedLayer.outline = d.drawn.map Layer.outline ∧
        ∀ (i : Nat) (l : Layer), d.drawn[i]? = some l → (∀ t ∈ l.tokens, t.isTheme = false) →
          a.layers[i]? = b.layers[i]? := by
  refine ⟨fun s s' l h => ⟨trackLayer_eq_of_agreesOn h, edgeIssues_eq_of_agreesOn h⟩, ?_⟩
  intro d c c' bounds h a b
  have hduration : a.duration = b.duration := (h.effectiveDuration d bounds).symm
  have ha : a.layers = d.drawn.map _ := Composition.layers_ofDefinition d c bounds
  have hb : b.layers = d.drawn.map _ := Composition.layers_ofDefinition d c' bounds
  refine ⟨hduration, ?_, ?_, ?_⟩
  · rw [ha, List.map_map]
    rfl
  · rw [hb, List.map_map]
    rfl
  · intro i l hi hl
    have hagree : AgreesOn (ofDefinition d c (c.effectiveDuration d bounds))
        (ofDefinition d c' (c'.effectiveDuration d bounds)) l.tokens := by
      intro t ht
      rw [h.effectiveDuration d bounds]
      exact h.resolveToken d _ (hl t ht)
    rw [ha, hb, List.getElem?_map, List.getElem?_map, hi, Option.map_some, Option.map_some,
      trackLayer_eq_of_agreesOn hagree]

/-- The logo of a new template is the same under both of its themes, and the background is not. -/
theorem Scope.logo_under_both_themes :
    let d := Definition.starter "card" "Card"
    let c := Customization.empty.withTheme "classic"
    let c' := Customization.empty.withTheme "gold"
    let a := Composition.ofDefinition d c .standard
    let b := Composition.ofDefinition d c' .standard
    c.SameButTheme c' ∧ a.layers[1]? = b.layers[1]? ∧ a.layers[1]?.map (·.id) = some "logo" ∧
      a.layers[0]? ≠ b.layers[0]? := by
  intro d c c' a b
  have hc : c.SameButTheme c' := ⟨rfl, rfl⟩
  have hdrawn : d.drawn = d.layers := List.mergeSort_of_pairwise (by decide +kernel)
  have ha : a.layers = d.layers.map _ := hdrawn ▸ Composition.layers_ofDefinition d c .standard
  have hb : b.layers = d.layers.map _ := hdrawn ▸ Composition.layers_ofDefinition d c' .standard
  obtain ⟨l, hlogo, hl⟩ : ∃ l, d.drawn[1]? = some l ∧ ∀ t ∈ l.tokens, t.isTheme = false := by
    rw [hdrawn]
    exact ⟨_, rfl, by decide +kernel⟩
  obtain ⟨-, -, -, hsame⟩ := layer_depends_on_tokens.2 d c c' .standard hc
  refine ⟨hc, hsame 1 l hlogo hl, ?_, ?_⟩
  · rw [ha]
    rfl
  · rw [ha, hb]
    decide +kernel

end MotionTemplate
