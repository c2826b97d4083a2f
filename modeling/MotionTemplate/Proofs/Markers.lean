import MotionTemplate.Proofs.Json.Rereading
import MotionTemplate.Template.Value

/-! Markers written back. Free-form data is put in order once, and a value writes the very data that
its markers were parsed in. -/
namespace MotionTemplate

namespace Token

private theorem afterLead?_eq_some_iff {lead text rest : List Char} :
    afterLead? lead text = some rest ↔ text = lead ++ rest := by
  induction lead generalizing text with
  | nil => exact Option.some_inj
  | cons a lead ih =>
    cases text with
    | nil => simp [afterLead?]
    | cons b text =>
      rw [afterLead?, List.cons_append, List.cons.injEq]
      split
      · next hab => simp only [ih, hab, true_and]
      · next hab => simp only [reduceCtorEq, Ne.symm hab, false_and]

/-- What follows a lead is any text but the empty one. -/
theorem named?_eq_some_iff {lead text name : String} :
    named? lead text = some name ↔ text = lead ++ name ∧ name ≠ "" := by
  rw [← String.toList_inj, String.toList_append, ← afterLead?_eq_some_iff, named?]
  cases h : afterLead? lead.toList text.toList with
  | none => simp
  | some rest =>
    have hrest : rest = name.toList ↔ name = String.ofList rest := by
      rw [← String.toList_inj, String.toList_ofList, eq_comm]
    cases rest with
    | nil => simp [hrest]
    | cons c rest =>
      have hne : String.ofList (c :: rest) ≠ "" := by simp
      rw [Option.some_inj, Option.some_inj, hrest]
      constructor
      · rintro rfl
        exact ⟨rfl, hne⟩
      · intro h
        exact h.1.symm

/-- A token is written as the text that it was parsed from. -/
theorem marker_of_parse {text : String} {t : Token} (h : parse text = some t) :
    t.marker = text := by
  rw [parse] at h
  split at h
  · next hd =>
    obtain rfl := Option.some.inj h
    exact hd.symm
  · split at h
    · next hn =>
      obtain rfl := Option.some.inj h
      exact (named?_eq_some_iff.1 hn).1.symm
    · split at h
      · next hn =>
        obtain rfl := Option.some.inj h
        exact (named?_eq_some_iff.1 hn).1.symm
      · obtain ⟨name, hn, rfl⟩ := Option.map_eq_some_iff.1 h
        exact (named?_eq_some_iff.1 hn).1.symm

end Token

namespace Value

private theorem toJson_string (s : String) : (ofJson (.string s)).toJson = .string s := by
  rw [ofJson]
  cases h : Token.parse s with
  | none => rfl
  | some t => exact congrArg Json.string (Token.marker_of_parse h)

mutual

/-- Parsing the markers loses nothing. -/
theorem toJson_ofJson : ∀ j : Json, (ofJson j).toJson = j
  | .string s => toJson_string s
  | .array items => congrArg Json.array (toItems_ofItems items)
  | .object fields => congrArg Json.object (toFields_ofFields fields)
  | .null | .bool _ | .number _ | .unreadable => rfl

private theorem toItems_ofItems : ∀ items : List Json, toItems (ofItems items) = items
  | [] => rfl
  | j :: rest => by rw [ofItems, toItems, toJson_ofJson j, toItems_ofItems rest]

private theorem toFields_ofFields : ∀ fields : List (String × Json),
    toFields (ofFields fields) = fields
  | [] => rfl
  | (name, j) :: rest => by rw [ofFields, toFields, toJson_ofJson j, toFields_ofFields rest]

end

end Value

namespace Decoder

private theorem jsonItems_eq_mapM (room : Nat) (items : List Json) :
    jsonItems room items = items.mapM (json room) := by
  induction items with
  | nil => rfl
  | cons j rest ih =>
    rw [jsonItems, List.mapM_cons, ih]

theorem jsonFields_eq_mapM (room : Nat) (fields : List (String × Json)) :
    jsonFields room fields = fields.mapM fun f => (json room f.2).map fun j => (f.1, j) := by
  induction fields with
  | nil => rfl
  | cons f rest ih =>
    obtain ⟨name, j⟩ := f
    rw [jsonFields, List.mapM_cons, ih]
    cases json room j <;> rfl

private theorem json_array {room : Nat} {items : List Json} {k : Json} :
    json room (.array items) = some k ↔ 2 ≤ room ∧ ∃ out,
      List.Forall₂ (fun j k => json (room - 1) j = some k) items out ∧ k = .array out := by
  rw [json, Option.bind_eq_some_iff]
  simp only [enter?_eq_some_iff, jsonItems_eq_mapM, Option.map_eq_some_iff, mapM_eq_some_iff]
  constructor
  · rintro ⟨_, ⟨hroom, rfl⟩, out, hout, rfl⟩
    exact ⟨hroom, out, hout, rfl⟩
  · rintro ⟨hroom, out, hout, rfl⟩
    exact ⟨_, ⟨hroom, rfl⟩, out, hout, rfl⟩

private theorem json_object {room : Nat} {fields : List (String × Json)} {k : Json} :
    json room (.object fields) = some k ↔ 2 ≤ room ∧ ∃ out,
      List.Forall₂ (fun f g => (json (room - 1) f.2).map (fun j => (f.1, j)) = some g) fields out ∧
        k = .object (KeyMap.ofList out).entries := by
  rw [json, Option.bind_eq_some_iff]
  simp only [enter?_eq_some_iff, jsonFields_eq_mapM, Option.map_eq_some_iff, mapM_eq_some_iff]
  constructor
  · rintro ⟨_, ⟨hroom, rfl⟩, out, hout, rfl⟩
    exact ⟨hroom, out, hout, rfl⟩
  · rintro ⟨hroom, out, hout, rfl⟩
    exact ⟨_, ⟨hroom, rfl⟩, out, hout, rfl⟩

private theorem json_null {room : Nat} {j : Json} (h : json room j = some .null) : j = .null := by
  cases j with
  | null => rfl
  | array items =>
    obtain ⟨-, _, -, h⟩ := json_array.1 h
    cases h
  | object fields =>
    obtain ⟨-, _, -, h⟩ := json_object.1 h
    cases h
  | _ => simp [json] at h

/-- Free-form data in order stays as it is. -/
private theorem written_json {room : Nat} {j k : Json} (hj : j.Sound) (h : json room j = some k) :
    Written json id room k := by
  induction hj generalizing room k with
  | null | bool | string =>
    obtain rfl := Option.some.inj h
    exact ⟨rfl, by constructor⟩
  | number hn =>
    obtain rfl := Option.some.inj h
    exact ⟨rfl, .number hn⟩
  | unreadable => exact nomatch h
  | array _ ih =>
    obtain ⟨hroom, out, hout, rfl⟩ := json_array.1 h
    have hall : ∀ k ∈ out, Written json id (room - 1) k := by
      intro k hk
      obtain ⟨j, hj, hjk⟩ := exists_of_forall₂ hout hk
      exact ih j hj hjk
    exact ⟨json_array.2 ⟨hroom, out, List.forall₂_same.2 fun k hk => (hall k hk).decoded, rfl⟩,
      .array fun k hk => (hall k hk).writable⟩
  | object _ ih =>
    obtain ⟨hroom, out, hout, rfl⟩ := json_object.1 h
    have hall : ∀ g ∈ (KeyMap.ofList out).entries, Written json id (room - 1) g.2 := by
      intro g hg
      obtain ⟨f, hf, hfg⟩ := exists_of_forall₂ hout (KeyMap.mem_of_mem_ofList hg)
      obtain ⟨j, hj, rfl⟩ := Option.map_eq_some_iff.1 hfg
      exact ih f hf hj
    refine ⟨json_object.2 ⟨hroom, _, List.forall₂_same.2 fun g hg => ?_, ?_⟩,
      .object fun g hg => (hall g hg).writable⟩
    · exact Option.map_eq_some_iff.2 ⟨_, (hall g hg).decoded, rfl⟩
    · rw [KeyMap.ofList_entries]

theorem rereads_value : Rereads Value.decoder Value.toJson 0 := by
  intro room j v _ hj h
  obtain ⟨k, hk, rfl⟩ := Option.map_eq_some_iff.1 h
  have hw := written_json hj hk
  refine ⟨?_, ?_⟩
  · rw [Value.toJson_ofJson, Value.decoder, map, show json room k = some k from hw.decoded]
    rfl
  · rw [Value.toJson_ofJson]
    exact hw.writable

/-- Only null is written as null, so a value that is there is written as one. -/
theorem rereads_valueOption : Rereads (option Value.decoder) (Json.ofOption Value.toJson) 0 := by
  refine rereads_option rereads_value fun room j v hne h hnull => hne ?_
  obtain ⟨k, hk, rfl⟩ := Option.map_eq_some_iff.1 h
  rw [Value.toJson_ofJson] at hnull
  exact json_null (hnull ▸ hk)

end Decoder

end MotionTemplate
