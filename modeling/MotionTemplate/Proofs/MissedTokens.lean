import Mathlib.Data.List.Flatten
import MotionTemplate.Composition.Resolution

/-! Missed tokens. Resolving a definition warns of every token that takes a fallback, wherever it
stands, and of each only once. -/
namespace MotionTemplate

namespace Scope

variable (s : Scope)

/-- Whether a token has a literal of its own. -/
def resolves (t : Token) : Bool := (s.resolveToken t).2

private theorem missed_token (t : Token) :
    (s.track (.token t)).missed = [t].filter (!s.resolves ·) := by
  simp only [track, resolves, List.filter_cons, List.filter_nil]
  cases (s.resolveToken t).2 <;> rfl

mutual

/-- Resolving a value misses those of its tokens that have no literal. -/
private theorem missed_track : ∀ v : Value,
    (s.track v).missed = v.tokens.filter (!s.resolves ·)
  | .token t => missed_token s t
  | .literal _ => rfl
  | .array items => missed_trackItems items
  | .object fields => missed_trackFields fields

private theorem missed_trackItems : ∀ items : List Value,
    (s.trackItems items).missed = (Value.itemTokens items).filter (!s.resolves ·)
  | [] => rfl
  | v :: rest => by
    simp only [trackItems, Value.itemTokens, List.filter_append, missed_track v,
      missed_trackItems rest]

private theorem missed_trackFields : ∀ fields : List (String × Value),
    (s.trackFields fields).missed = (Value.fieldTokens fields).filter (!s.resolves ·)
  | [] => rfl
  | (_, v) :: rest => by
    simp only [trackFields, Value.fieldTokens, List.filter_append, missed_track v,
      missed_trackFields rest]

end

private theorem missed_flatMap (values : List Value) :
    values.flatMap (fun v => (s.track v).missed) =
      (values.flatMap Value.tokens).filter (!s.resolves ·) := by
  simp only [missed_track, List.filter_flatMap]

private theorem missed_trackOption (v : Option Value) :
    (s.trackOption v).missed = (v.toList.flatMap Value.tokens).filter (!s.resolves ·) := by
  cases v with
  | none => rfl
  | some v =>
    simp only [trackOption, missed_track s v, Option.toList_some, List.flatMap_cons,
      List.flatMap_nil, List.append_nil]

/-- The duration token is left unresolved as an end, and would not have been missed. -/
private theorem missed_trackFinish (l : Layer) :
    (s.trackFinish l).missed = l.finish.tokens.filter (!s.resolves ·) := by
  rw [trackFinish]
  split
  · next h =>
    cases hf : l.finish with
    | token t =>
      rw [hf] at h
      obtain rfl : t = .currentDuration := Option.some.inj h
      rfl
    | literal | array | object =>
      rw [hf] at h
      exact nomatch h
  · exact missed_track s l.finish

/-- Resolving a layer meets exactly the tokens that are listed for it. -/
theorem missed_trackLayer (l : Layer) :
    (s.trackLayer l).missed = l.tokens.filter (!s.resolves ·) := by
  have hstart : (s.trackStart l).missed = l.start.tokens.filter (!s.resolves ·) :=
    missed_track s l.start
  simp only [trackLayer, trackMap, Layer.tokens, hstart, missed_trackFinish, missed_trackOption,
    missed_flatMap, List.filter_append, List.flatMap_append, List.append_assoc]

end Scope

namespace Resolution

/-- What is said of a token that took a fallback. -/
def missedMessage : String := "Unresolved reference, substituting fallback"

def missedWarning (template : String) (t : Token) : Event where
  severity := .warning
  message := missedMessage
  details := [("template", .text template), ("token", .text t.marker)]

private theorem events_split (r : Resolution) :
    ∃ before after : List Event,
      r.events = before ++ r.missed.map (missedWarning r.composition.template) ++ after ∧
        ∀ e ∈ before ++ after, e.message ≠ missedMessage := by
  refine ⟨_, _, List.append_assoc _ _ _, ?_⟩
  intro e he
  simp only [List.mem_append, List.mem_map, List.mem_singleton] at he
  rcases he with (⟨_, -, rfl⟩ | ⟨i, -, rfl⟩) | ⟨_, -, rfl⟩ | rfl
  · exact of_decide_eq_false rfl
  · cases i <;> exact of_decide_eq_false rfl
  · exact of_decide_eq_false rfl
  · exact of_decide_eq_false rfl

/-- Among all that is reported every missed token has one warning, in its place. -/
theorem filter_events (r : Resolution) :
    r.events.filter (·.message = missedMessage) =
      r.missed.map (missedWarning r.composition.template) := by
  obtain ⟨before, after, heq, hother⟩ := events_split r
  obtain ⟨hbefore, hafter⟩ := List.forall_mem_append.1 hother
  have hnone : ∀ events : List Event, (∀ e ∈ events, e.message ≠ missedMessage) →
      events.filter (·.message = missedMessage) = [] := by
    intro events h
    apply List.filter_eq_nil_iff.2
    intro e he
    simpa using h e he
  have hall : (r.missed.map (missedWarning r.composition.template)).filter
      (·.message = missedMessage) = r.missed.map (missedWarning r.composition.template) := by
    apply List.filter_eq_self.2
    intro e he
    obtain ⟨t, -, rfl⟩ := List.mem_map.1 he
    exact decide_eq_true rfl
  rw [heq, List.filter_append, List.filter_append, hnone _ hbefore, hall, hnone _ hafter,
    List.nil_append, List.append_nil]

/-- The tokens that a resolution misses. -/
theorem mem_missed_iff {d : Definition} {c : Customization} {bounds : DurationBounds} {t : Token} :
    t ∈ (ofDefinition d c bounds).missed ↔
      (∃ l ∈ d.layers, t ∈ l.tokens) ∧
        (Scope.ofDefinition d c (c.effectiveDuration d bounds)).resolves t = false := by
  simp only [ofDefinition, Token.mem_distinct, List.flatMap_map, List.mem_flatMap,
    Scope.missed_trackLayer, List.mem_filter, Bool.not_eq_true']
  grind

/-- Resolving a definition warns of exactly the tokens of its layers that take a fallback. Each has
one warning, wherever and however often it stands, and the warnings come in the order of tokens. -/
theorem missed_warned_once (d : Definition) (c : Customization) (bounds : DurationBounds) :
    let r := ofDefinition d c bounds
    let s := Scope.ofDefinition d c r.composition.duration
    r.events.filter (·.message = missedMessage) = r.missed.map (missedWarning d.id) ∧
      (r.missed.Pairwise fun a b => a.before b) ∧ r.missed.Nodup ∧
      ∀ t, t ∈ r.missed ↔ (∃ l ∈ d.layers, t ∈ l.tokens) ∧ (s.resolveToken t).2 = false := by
  intro r s
  have hascending : r.missed.Pairwise fun a b => a.before b := Token.pairwise_distinct _
  refine ⟨filter_events r, hascending, ?_, fun t => mem_missed_iff⟩
  apply hascending.imp
  rintro a _ h rfl
  exact Token.before_irrefl a h

end Resolution

end MotionTemplate
