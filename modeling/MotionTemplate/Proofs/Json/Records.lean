import MotionTemplate.Proofs.Json.Rereading

/-! Structured values written field by field. A record is read from an array or an object and is
always written as an object, without the fields that say nothing; each field is decoded to what it
was before. -/
namespace MotionTemplate

variable {α : Type} {d : Decoder α} {write : α → Json} {least : Nat} {name key : String} {a : α}

namespace KeyMap

@[simp] theorem lookup_nil : lookup key ([] : List (String × α)) = none := rfl

@[simp] theorem lookup_cons {v : α} {rest : List (String × α)} :
    lookup key ((name, v) :: rest) = if name = key then some v else lookup key rest := rfl

attribute [simp] lookup_append

end KeyMap

namespace Json

open KeyMap (lookup)

@[simp] theorem lookup_optionalField {v : Option α} :
    lookup key (optionalField name write v) = if name = key then v.map write else none := by
  cases v <;> simp [optionalField]

@[simp] theorem lookup_listField {items : List α} :
    lookup key (listField name write items) =
      if name = key ∧ items ≠ [] then some (ofList write items) else none := by
  cases items <;> simp [listField]

@[simp] theorem lookup_mapField {m : KeyMap α} :
    lookup key (mapField name write m) =
      if name = key ∧ m.isEmpty = false then some (ofMap write m) else none := by
  cases h : m.isEmpty <;> simp [mapField, h]

theorem names_optionalField (name : String) (write : α → Json) (v : Option α) :
    ((optionalField name write v).map (·.1)).Sublist [name] := by
  cases v with
  | none => exact List.nil_sublist _
  | some v => exact List.Sublist.refl _

theorem names_listField (name : String) (write : α → Json) (items : List α) :
    ((listField name write items).map (·.1)).Sublist [name] := by
  cases items with
  | nil => exact List.nil_sublist _
  | cons v rest => exact List.Sublist.refl _

theorem names_mapField (name : String) (write : α → Json) (m : KeyMap α) :
    ((mapField name write m).map (·.1)).Sublist [name] := by
  rw [mapField]
  split
  · exact List.nil_sublist _
  · exact List.Sublist.refl _

variable {p : String × Json → Prop}

@[simp] theorem forall_mem_optionalField {v : Option α} :
    (∀ f ∈ optionalField name write v, p f) ↔ ∀ a ∈ v, p (name, write a) := by
  cases v <;> simp [optionalField]

@[simp] theorem forall_mem_listField {items : List α} :
    (∀ f ∈ listField name write items, p f) ↔ (items ≠ [] → p (name, ofList write items)) := by
  cases items <;> simp [listField]

@[simp] theorem forall_mem_mapField {m : KeyMap α} :
    (∀ f ∈ mapField name write m, p f) ↔ (m.isEmpty = false → p (name, ofMap write m)) := by
  cases h : m.isEmpty <;> simp [mapField, h]

end Json

namespace Decoder

/-- The fields are sound and were found in so much room. -/
structure Record.SoundIn (r : Record) (room : Nat) : Prop where
  room_eq : r.room = room
  sound : ∀ f ∈ r.fields, f.2.Sound

/-- What a record is read from, as an object or as an array, is one level further out. -/
private theorem soundIn_of_record {names : List String} {room : Nat} {j : Json} {r : Record}
    (hj : j.Sound) (h : record names room j = some r) : 2 ≤ room ∧ r.SoundIn (room - 1) := by
  cases hj with
  | @object fields hfields =>
    obtain ⟨inner, hinner, h⟩ := Option.bind_eq_some_iff.1 h
    obtain ⟨hroom, rfl⟩ := enter?_eq_some_iff.1 hinner
    simp only at h
    split at h
    · obtain rfl := Option.some.inj h
      exact ⟨hroom, rfl, fun f hf => hfields f (List.mem_filter.1 hf).1⟩
    · exact nomatch h
  | @array items hitems =>
    obtain ⟨inner, hinner, h⟩ := Option.bind_eq_some_iff.1 h
    obtain ⟨hroom, rfl⟩ := enter?_eq_some_iff.1 hinner
    split at h
    · obtain rfl := Option.some.inj h
      exact ⟨hroom, rfl, fun f hf => hitems f.2 (List.of_mem_zip hf).2⟩
    · exact nomatch h
  | _ => exact nomatch h

theorem soundIn_of_record_bind {β : Type} {names : List String} {room : Nat} {j : Json}
    {f : Record → Option β} {b : β} (hj : j.Sound) (h : (record names room j).bind f = some b) :
    ∃ r, 2 ≤ room ∧ r.SoundIn (room - 1) ∧ f r = some b := by
  obtain ⟨r, hr, h⟩ := Option.bind_eq_some_iff.1 h
  obtain ⟨hroom, hr⟩ := soundIn_of_record hj hr
  exact ⟨r, hroom, hr, h⟩

/-- Fields that are written in the order of their declaration are all of a record. -/
theorem record_object {names : List String} {room : Nat} {fields : List (String × Json)}
    (hroom : 2 ≤ room) (hnames : names.Nodup) (h : (fields.map (·.1)).Sublist names) :
    record names room (.object fields) = some ⟨fields, false, room - 1⟩ := by
  have hknown : (fields.filter fun f => names.contains f.1) = fields := by
    rw [List.filter_eq_self]
    intro f hf
    exact List.contains_iff_mem.2 (h.subset (List.mem_map_of_mem hf))
  have hnodup : (fields.map (·.1)).Nodup := h.nodup hnames
  simp only [record, enter?_of_le hroom, Option.bind_some, hknown, if_pos hnodup]

end Decoder

open Decoder

section

variable {β : Type} {r : Record} {room : Nat} {f : α → Option β} {b : β}

/-- What a field was decoded to is written so that it is taken back, and the rest of the record is
read with it. -/
theorem Decoder.Record.SoundIn.required (hr : r.SoundIn room) (hd : Rereads d write least)
    (hroom : least ≤ room) (h : (r.required name d).bind f = some b) :
    ∃ a, Written d write room a ∧ f a = some b := by
  obtain ⟨a, ha, h⟩ := Option.bind_eq_some_iff.1 h
  obtain ⟨j, hj, ha⟩ := Option.bind_eq_some_iff.1 ha
  exact ⟨a, hd hroom (hr.sound _ (KeyMap.mem_of_lookup hj)) (hr.room_eq ▸ ha), h⟩

theorem Decoder.Record.SoundIn.withDefault {default : α} (hr : r.SoundIn room)
    (hd : Rereads d write least) (hroom : least ≤ room) (hdefault : Written d write room default)
    (h : (r.withDefault name d default).bind f = some b) :
    ∃ a, Written d write room a ∧ f a = some b := by
  obtain ⟨a, ha, h⟩ := Option.bind_eq_some_iff.1 h
  refine ⟨a, ?_, h⟩
  rw [Record.withDefault] at ha
  split at ha
  · obtain rfl := Option.some.inj ha
    exact hdefault
  · next j hj => exact hd hroom (hr.sound _ (KeyMap.mem_of_lookup hj)) (hr.room_eq ▸ ha)

theorem Decoder.Record.SoundIn.optional {f : Option α → Option β} (hr : r.SoundIn room)
    (hd : Rereads (option d) (Json.ofOption write) least) (hroom : least ≤ room)
    (h : (r.optional name d).bind f = some b) :
    ∃ v, Written (option d) (Json.ofOption write) room v ∧ f v = some b :=
  hr.withDefault hd hroom (written_option fun _ ha => absurd ha (Option.not_mem_none _)) h

variable {fields : List (String × Json)} {positional : Bool}

theorem Written.required (hw : Written d write room a)
    (h : KeyMap.lookup name fields = some (write a)) (hf : f a = some b) :
    ((⟨fields, positional, room⟩ : Record).required name d).bind f = some b := by
  rw [Record.required, h, Option.bind_some, hw.decoded, Option.bind_some, hf]

theorem Written.withDefault {default : α} (hw : Written d write room a)
    (h : KeyMap.lookup name fields = some (write a)) (hf : f a = some b) :
    ((⟨fields, positional, room⟩ : Record).withDefault name d default).bind f = some b := by
  rw [Record.withDefault, h]
  exact Option.bind_eq_some_iff.2 ⟨a, hw.decoded, hf⟩

/-- A field that is left out stands for its default. -/
theorem Decoder.Record.withDefault_of_missing (h : KeyMap.lookup name fields = none)
    (hf : f a = some b) :
    ((⟨fields, positional, room⟩ : Record).withDefault name d a).bind f = some b := by
  rw [Record.withDefault, h, Option.bind_some, hf]

theorem Written.optional {v : Option α} {f : Option α → Option β}
    (hw : Written (option d) (Json.ofOption write) room v)
    (h : KeyMap.lookup name fields = v.map write) (hf : f v = some b) :
    ((⟨fields, positional, room⟩ : Record).optional name d).bind f = some b := by
  cases v with
  | none => exact Record.withDefault_of_missing h hf
  | some a => exact hw.withDefault h hf

theorem Written.nullable {v : Option α} {f : Option α → Option β}
    (hw : Written (option d) (Json.ofOption write) room v)
    (h : KeyMap.lookup name fields = some (Json.ofOption write v)) (hf : f v = some b) :
    ((⟨fields, false, room⟩ : Record).nullable name d).bind f = some b := by
  rw [Record.nullable, if_neg Bool.false_ne_true]
  exact hw.withDefault h hf

theorem Written.listField {items : List α} {f : List α → Option β}
    (hw : Written (list d) (Json.ofList write) room items)
    (h : KeyMap.lookup name fields = KeyMap.lookup name (Json.listField name write items))
    (hf : f items = some b) :
    ((⟨fields, positional, room⟩ : Record).withDefault name (list d) []).bind f = some b := by
  cases items with
  | nil => exact Record.withDefault_of_missing h hf
  | cons a rest => exact hw.withDefault (h.trans (by simp)) hf

theorem Written.mapField {m : KeyMap α} {f : KeyMap α → Option β}
    (hw : Written (keyMap d) (Json.ofMap write) room m)
    (h : KeyMap.lookup name fields = KeyMap.lookup name (Json.mapField name write m))
    (hf : f m = some b) :
    ((⟨fields, positional, room⟩ : Record).withDefault name (keyMap d) ∅).bind f = some b := by
  cases hm : m.isEmpty with
  | false => exact hw.withDefault (h.trans (by simp [hm])) hf
  | true =>
    obtain rfl : m = ∅ := KeyMap.eq_empty_of_isEmpty hm
    exact Record.withDefault_of_missing h hf

theorem Written.writable_optional {v : Option α}
    (hw : Written (option d) (Json.ofOption write) room v) :
    ∀ f ∈ Json.optionalField name write v, f.2.Writable := by
  rw [Json.forall_mem_optionalField]
  rintro a ⟨⟩
  exact hw.writable

end

/-- A value is taken back when a record of the fields written for it is read as the value. -/
theorem written_object {names : List String} {read : Record → Option α} {room : Nat}
    {fields : List (String × Json)} (hd : ∀ j, d room j = (record names room j).bind read)
    (hwrite : write a = .object fields) (hroom : 2 ≤ room) (hnames : names.Nodup)
    (hfields : (fields.map (·.1)).Sublist names) (hwritable : ∀ f ∈ fields, f.2.Writable)
    (hread : read ⟨fields, false, room - 1⟩ = some a) : Written d write room a := by
  constructor
  · rw [hd, hwrite, record_object hroom hnames hfields, Option.bind_some, hread]
  · rw [hwrite]
    exact .object hwritable

end MotionTemplate
