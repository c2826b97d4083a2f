import MotionTemplate.Customization
import MotionTemplate.Proofs.Json.Records
import MotionTemplate.Proofs.Json.Spelling
import MotionTemplate.Proofs.Markers

/-! Customizations in their flat form. The two named fields and the placeholders share one object,
so that a customization is read back from it exactly when no placeholder takes the name of a field
and the duration can be written. -/
namespace MotionTemplate.Customization

open Decoder
open KeyMap (lookup)

/-- What the flat form can hold. -/
structure Flat (c : Customization) : Prop where
  finite : ∀ secs ∈ c.duration, secs.isFinite
  theme_free : themeField ∉ c.values.keys
  duration_free : durationField ∉ c.values.keys

/-! ### What the decoder reads -/

private def named (fields : List (String × Json)) : List (String × Json) :=
  fields.filter fun f => f.1 = themeField ∨ f.1 = durationField

private def others (fields : List (String × Json)) : List (String × Json) :=
  fields.filter fun f => f.1 ≠ themeField ∧ f.1 ≠ durationField

private theorem decoder_eq_some_iff {room : Nat} {fields : List (String × Json)}
    {c : Customization} :
    decoder room (.object fields) = some c ↔
      2 ≤ room ∧ ((named fields).map (·.1)).Nodup ∧
        (⟨named fields, false, room - 1⟩ : Record).optional themeField string = some c.theme ∧
        (⟨named fields, false, room - 1⟩ : Record).optional durationField float =
          some c.duration ∧
        ∃ entries, (others fields).mapM (fun f => f.2.str?.map (f.1, ·)) = some entries ∧
          KeyMap.ofList entries = c.values := by
  constructor
  · intro h
    obtain ⟨inner, hinner, h⟩ := Option.bind_eq_some_iff.1 h
    obtain ⟨hroom, rfl⟩ := enter?_eq_some_iff.1 hinner
    obtain ⟨_, hnames, h⟩ := Option.bind_eq_some_iff.1 h
    obtain ⟨theme, htheme, h⟩ := Option.bind_eq_some_iff.1 h
    obtain ⟨duration, hduration, h⟩ := Option.bind_eq_some_iff.1 h
    obtain ⟨entries, hentries, h⟩ := Option.bind_eq_some_iff.1 h
    obtain rfl := Option.some.inj h
    have hnodup : ((named fields).map (·.1)).Nodup := by
      by_contra hn
      exact nomatch (if_neg hn).symm.trans hnames
    exact ⟨hroom, hnodup, htheme, hduration, entries, hentries, rfl⟩
  · rintro ⟨hroom, hnodup, htheme, hduration, entries, hentries, hvalues⟩
    refine Option.bind_eq_some_iff.2 ⟨room - 1, enter?_of_le hroom, ?_⟩
    refine Option.bind_eq_some_iff.2 ⟨(), if_pos hnodup, ?_⟩
    refine Option.bind_eq_some_iff.2 ⟨_, htheme, ?_⟩
    refine Option.bind_eq_some_iff.2 ⟨_, hduration, ?_⟩
    refine Option.bind_eq_some_iff.2 ⟨_, hentries, ?_⟩
    rw [hvalues]
    rfl

/-- A duration was read from a number of the text, and those are finite. -/
private theorem isFinite_of_optional {fields : List (String × Json)} {room : Nat}
    {name : String} {secs : Float} (hfields : ∀ f ∈ fields, f.2.Sound)
    (h : (⟨fields, false, room⟩ : Record).optional name float = some (some secs)) :
    secs.isFinite := by
  rw [Record.optional, Record.withDefault] at h
  split at h
  · cases h
  · next j hj =>
    unfold option at h
    split at h
    · cases h
    · obtain ⟨x, hx, hxs⟩ := Option.map_eq_some_iff.1 h
      obtain rfl := Option.some.inj hxs
      exact isFinite_of_float (hfields _ (KeyMap.mem_of_lookup hj)) hx

/-- Whatever was decoded can be written in the flat form. -/
private theorem flat_of_decoder {room : Nat} {j : Json} {c : Customization} (hj : j.Sound)
    (h : decoder room j = some c) : c.Flat := by
  cases hj with
  | @object fields hfields =>
    obtain ⟨-, -, -, hduration, entries, hentries, hvalues⟩ := decoder_eq_some_iff.1 h
    have hother : ∀ name ∈ c.values.keys, name ≠ themeField ∧ name ≠ durationField := by
      intro name hname
      obtain ⟨e, he, rfl⟩ := List.mem_map.1 hname
      have hmem := KeyMap.mem_of_mem_ofList (hvalues ▸ he)
      obtain ⟨f, hf, hfe⟩ := exists_of_forall₂ (mapM_eq_some_iff.1 hentries) hmem
      obtain ⟨s, -, rfl⟩ := Option.map_eq_some_iff.1 hfe
      simpa using (List.mem_filter.1 hf).2
    refine ⟨?finite, fun hm => (hother _ hm).1 rfl, fun hm => (hother _ hm).2 rfl⟩
    rintro secs hsecs
    rw [Option.mem_def.1 hsecs] at hduration
    exact isFinite_of_optional (fun f hf => hfields f (List.mem_filter.1 hf).1) hduration
  | _ => exact nomatch h

/-! ### What is written -/

/-- The named fields, in the order in which they are written. -/
private def namedFields (c : Customization) : List (String × Json) :=
  Json.optionalField themeField .string c.theme
    ++ Json.optionalField durationField .ofFloat c.duration

private def valueField (e : String × String) : String × Json := (e.1, .string e.2)

private theorem toFields_eq (c : Customization) :
    c.toFields = c.namedFields ++ c.values.entries.map valueField := rfl

private theorem writable_ofFloat (x : Float) : (Json.ofFloat x).Writable := by
  rw [Json.ofFloat]
  split
  · next hx => exact .number hx
  · exact .null

private theorem writable_toJson (c : Customization) : c.toJson.Writable := by
  refine .object ?_
  rw [toFields_eq, namedFields, List.forall_mem_append, List.forall_mem_append,
    Json.forall_mem_optionalField, Json.forall_mem_optionalField, List.forall_mem_map]
  exact ⟨⟨fun s _ => .string s, fun x _ => writable_ofFloat x⟩, fun e _ => .string e.2⟩

private theorem name_of_mem_namedFields (c : Customization) :
    ∀ f ∈ c.namedFields, f.1 = themeField ∨ f.1 = durationField := by
  rw [namedFields, List.forall_mem_append, Json.forall_mem_optionalField,
    Json.forall_mem_optionalField]
  exact ⟨fun _ _ => .inl rfl, fun _ _ => .inr rfl⟩

private theorem names_namedFields (c : Customization) : (c.namedFields.map (·.1)).Nodup := by
  have hsub : (c.namedFields.map (·.1)).Sublist ([themeField] ++ [durationField]) := by
    rw [namedFields, List.map_append]
    exact (Json.names_optionalField _ _ _).append (Json.names_optionalField _ _ _)
  exact hsub.nodup (by decide)

section

variable {c : Customization} (hc : c.Flat)

include hc

private theorem name_of_mem_values : ∀ f ∈ c.values.entries.map valueField,
    f.1 ≠ themeField ∧ f.1 ≠ durationField := by
  refine List.forall_mem_map.2 fun e he => ?_
  have hkey : e.1 ∈ c.values.keys := List.mem_map_of_mem he
  exact ⟨fun h => hc.theme_free (h ▸ hkey), fun h => hc.duration_free (h ▸ hkey)⟩

private theorem named_toFields : named c.toFields = c.namedFields := by
  have hfirst : named c.namedFields = c.namedFields :=
    List.filter_eq_self.2 fun f hf => decide_eq_true (c.name_of_mem_namedFields f hf)
  have hrest : named (c.values.entries.map valueField) = [] := by
    refine List.filter_eq_nil_iff.2 fun f hf => ?_
    obtain ⟨ht, hd⟩ := name_of_mem_values hc f hf
    simp [ht, hd]
  rw [toFields_eq, named, List.filter_append, ← named, ← named, hfirst, hrest, List.append_nil]

private theorem others_toFields : others c.toFields = c.values.entries.map valueField := by
  have hfirst : others c.namedFields = [] := by
    refine List.filter_eq_nil_iff.2 fun f hf => ?_
    rcases c.name_of_mem_namedFields f hf with h | h <;> simp [h]
  have hrest : others (c.values.entries.map valueField) = c.values.entries.map valueField :=
    List.filter_eq_self.2 fun f hf => decide_eq_true (name_of_mem_values hc f hf)
  rw [toFields_eq, others, List.filter_append, ← others, ← others, hfirst, hrest, List.nil_append]

/-- The order of the fields is immaterial. -/
private theorem decoder_of_perm {room : Nat} {fields : List (String × Json)} (hroom : 2 ≤ room)
    (h : fields.Perm c.toFields) : decoder room (.object fields) = some c := by
  have hnamed : (named fields).Perm c.namedFields := named_toFields hc ▸ h.filter _
  have hothers : (others fields).Perm (c.values.entries.map valueField) :=
    others_toFields hc ▸ h.filter _
  have hnames : ((named fields).map (·.1)).Nodup :=
    (hnamed.map (·.1)).symm.nodup c.names_namedFields
  have htheme : lookup themeField (named fields) = c.theme.map .string := by
    rw [KeyMap.lookup_eq_of_perm hnamed hnames]
    simp [namedFields, themeField, durationField]
  have hduration : lookup durationField (named fields) = c.duration.map .ofFloat := by
    rw [KeyMap.lookup_eq_of_perm hnamed hnames]
    simp [namedFields, themeField, durationField]
  have hwtheme : Written (option string) (Json.ofOption .string) (room - 1) c.theme :=
    written_option fun s _ => ⟨⟨rfl, .string s⟩, by simp⟩
  have hwduration : Written (option float) (Json.ofOption .ofFloat) (room - 1) c.duration := by
    refine written_option fun x hx => ⟨written_float (hc.finite x hx) _, ?_⟩
    simp [Json.ofFloat, hc.finite x hx]
  have hread : List.Forall₂ (fun (f : String × Json) e => f.2.str?.map (f.1, ·) = some e)
      (c.values.entries.map valueField) c.values.entries := by
    rw [List.forall₂_map_left_iff, List.forall₂_same]
    exact fun _ _ => rfl
  -- Fields in another order give the values in another order, and a map puts them in its own.
  obtain ⟨entries, hentries, hperm⟩ := List.perm_comp_forall₂ hothers hread
  refine decoder_eq_some_iff.2 ⟨hroom, hnames, ?_, ?_, entries, mapM_eq_some_iff.2 hentries,
    KeyMap.ofList_eq_of_perm hperm⟩
  · simpa using hwtheme.optional htheme (f := some) rfl
  · simpa using hwduration.optional hduration (f := some) rfl

end

private theorem decode?_compact {c : Customization} (hc : c.Flat) :
    Json.decode? decoder c.toJson.compact = some c := by
  rw [Json.decode?, Json.parse?_compact c.writable_toJson]
  exact decoder_of_perm hc (by decide) (.refl _)

private theorem json_of_mem_toFields (c : Customization) (room : Nat) :
    ∀ f ∈ c.toFields, json room f.2 = some f.2 := by
  rw [toFields_eq, namedFields, List.forall_mem_append, List.forall_mem_append,
    Json.forall_mem_optionalField, Json.forall_mem_optionalField, List.forall_mem_map]
  refine ⟨⟨fun s _ => by simp [json], fun x _ => ?_⟩, fun e _ => by simp [json, valueField]⟩
  rw [Json.ofFloat]
  split <;> simp [json]

private theorem jsonFields_eq_self {room : Nat} {fields : List (String × Json)}
    (h : ∀ f ∈ fields, json room f.2 = some f.2) : jsonFields room fields = some fields := by
  rw [jsonFields_eq_mapM, mapM_eq_some_iff, List.forall₂_same]
  intro f hf
  rw [h f hf, Option.map_some]

/-- Held as free-form data, an object has its fields in the order of their names. -/
private theorem run_json_toJson (c : Customization) :
    run json c.toJson = some (.object (KeyMap.ofList c.toFields).entries) := by
  rw [toJson, run, json, enter?_of_le (by decide), Option.bind_some,
    jsonFields_eq_self (c.json_of_mem_toFields _), Option.map_some]

private theorem names_toFields {c : Customization} (hc : c.Flat) :
    (c.toFields.map (·.1)).Nodup := by
  have hvalues : (c.values.entries.map valueField).map (·.1) = c.values.keys := by
    rw [List.map_map]
    rfl
  rw [toFields_eq, List.map_append]
  refine c.names_namedFields.append (hvalues ▸ c.values.names_nodup) fun name hnamed hvalue => ?_
  obtain ⟨f, hf, rfl⟩ := List.mem_map.1 hnamed
  obtain ⟨e, he, hname⟩ := List.mem_map.1 hvalue
  obtain ⟨ht, hd⟩ := name_of_mem_values hc e he
  rw [hname] at ht hd
  exact (c.name_of_mem_namedFields f hf).elim ht hd

/-- A customization is read back from the text of its flat form, and from the same data held as a
tree, exactly when the form can hold it. Whatever is read from a text is of that kind. -/
theorem decode?_flat_iff :
    (∀ c : Customization,
      (Json.decode? decoder c.toJson.compact = some c ↔ c.Flat) ∧
      ((run json c.toJson).bind (run decoder) = some c ↔ c.Flat)) ∧
    ∀ {text : String} {c : Customization}, Json.decode? decoder text = some c → c.Flat := by
  have hread : ∀ {text : String} {c : Customization},
      Json.decode? decoder text = some c → c.Flat := by
    intro text c h
    obtain ⟨j, hj, hc⟩ := Option.bind_eq_some_iff.1 h
    exact flat_of_decoder (Json.sound_of_parse? hj) hc
  refine ⟨fun c => ⟨⟨hread, decode?_compact⟩, ?_⟩, hread⟩
  rw [run_json_toJson, Option.bind_some]
  constructor
  · intro h
    -- A duration that is not finite was written as null, so that the tree is sound in any case.
    have hsound : c.toJson.Sound := Json.sound_of_parse? (Json.parse?_compact c.writable_toJson)
    cases hsound with
    | object hfields =>
      exact flat_of_decoder (.object fun f hf => hfields f (KeyMap.mem_of_mem_ofList hf)) h
  · intro hc
    exact decoder_of_perm hc (by decide) (KeyMap.ofList_perm (names_toFields hc))

/-- A greeting with a duration that is an integer in the text. -/
private def greeting : String :=
  "\x7b\"theme_id\":\"gold\",\"duration_seconds\":15,\"headline\":\"Hello\"\x7d"

theorem greeting_read_back :
    ∃ c, Json.decode? decoder greeting = some c ∧ c.Flat ∧
      Json.decode? decoder c.toJson.compact = some c := by
  obtain ⟨c, hc⟩ := Option.isSome_iff_exists.1
    (show (Json.decode? decoder greeting).isSome by decide +kernel)
  have hflat := decode?_flat_iff.2 hc
  exact ⟨c, hc, hflat, (decode?_flat_iff.1 c).1.2 hflat⟩

/-- A placeholder under the name of a field is read as that field. -/
example : Json.decode? decoder (empty.set themeField "gold").toJson.compact =
    some (empty.withTheme "gold") := by
  decide +kernel

end MotionTemplate.Customization
