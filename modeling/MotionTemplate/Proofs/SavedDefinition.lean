import MotionTemplate.Proofs.Json.Records
import MotionTemplate.Proofs.Json.Spelling
import MotionTemplate.Proofs.Markers
import MotionTemplate.Proofs.StoredText
import MotionTemplate.Template.Storage

/-! Definitions that are saved and loaded again. Every part of a definition is written as data that
is decoded to the same part, whichever of the accepted forms it was read from. -/
namespace MotionTemplate

open Decoder

private theorem rereads_stringOption : Rereads (option string) (Json.ofOption .string) 0 :=
  rereads_option rereads_string fun _ _ _ _ _ => by simp

namespace DisplayName

/-- The names of both languages as a record. -/
private def localizedDecoder : Decoder DisplayName := fun room j => do
  let r ← record ["en", "hi"] room j
  return localized (← r.required "en" string) (← r.optional "hi" string)

private theorem rereads_localized : Rereads localizedDecoder toJson 2 := by
  intro room j name hroom hj h
  obtain ⟨r, hin, hr, h⟩ := soundIn_of_record_bind hj h
  obtain ⟨en, hen, h⟩ := hr.required rereads_string (Nat.zero_le _) h
  obtain ⟨hi, hhi, h⟩ := hr.optional rereads_stringOption (Nat.zero_le _) h
  obtain rfl := Option.some.inj h
  refine written_object (fun _ => rfl) rfl hin (by decide) ?names ?writable ?read
  case names => exact (Json.names_optionalField _ _ _).cons_cons _
  case writable =>
    simp only [List.forall_mem_cons]
    exact ⟨hen.writable, hhi.writable_optional⟩
  case read =>
    refine hen.required (by simp) ?_
    refine hhi.optional (by simp) ?_
    rfl

/-- The object is read as a whole before its fields are. -/
private theorem json_localized {room : Nat} (hroom : 2 ≤ room) (en : String) (hi : Option String) :
    ∃ k, json room (localized en hi).toJson = some k := by
  cases hi <;> simp [toJson, Json.optionalField, json, jsonFields, enter?_of_le hroom]

theorem rereads : Rereads decoder toJson 2 := by
  intro room j name hroom hj h
  obtain ⟨_, -, h⟩ := Option.bind_eq_some_iff.1 h
  cases hj with
  | string s =>
    obtain rfl := Option.some.inj h
    exact ⟨rfl, .string s⟩
  | object hfields =>
    have hw : Written localizedDecoder toJson room name :=
      rereads_localized hroom (.object hfields) h
    refine ⟨?_, hw.writable⟩
    cases name with
    | localized en hi =>
      obtain ⟨k, hk⟩ := json_localized hroom en hi
      exact Option.bind_eq_some_iff.2 ⟨k, hk, hw.decoded⟩
    | plain name => exact nomatch hw.decoded
  | _ => exact nomatch h

end DisplayName

theorem Theme.rereads : Rereads Theme.decoder Theme.toJson 3 := by
  intro room j t hroom hj h
  have hmap : Rereads (keyMap string) (Json.ofMap .string) 2 := rereads_keyMap rereads_string
  obtain ⟨r, hin, hr, h⟩ := soundIn_of_record_bind hj h
  obtain ⟨name, hname, h⟩ := hr.optional rereads_stringOption (Nat.zero_le _) h
  obtain ⟨colors, hcolors, h⟩ := hr.withDefault hmap (by omega) (written_empty (by omega)) h
  obtain ⟨fonts, hfonts, h⟩ := hr.withDefault hmap (by omega) (written_empty (by omega)) h
  obtain rfl := Option.some.inj h
  refine written_object (fun _ => rfl) rfl hin (by decide) ?names ?writable ?read
  case names =>
    rw [List.map_append]
    exact (Json.names_optionalField _ _ _).append (.refl _)
  case writable =>
    simp only [List.forall_mem_append, List.forall_mem_cons]
    exact ⟨hname.writable_optional, hcolors.writable, hfonts.writable, List.forall_mem_nil _⟩
  case read =>
    refine hname.optional (by simp) ?_
    refine hcolors.withDefault (by simp) ?_
    refine hfonts.withDefault (by simp) ?_
    rfl

theorem Placeholder.rereads : Rereads Placeholder.decoder Placeholder.toJson 2 := by
  intro room j p hroom hj h
  have hnames : Rereads (oneOf PlaceholderKind.names)
      (fun k => .string (nameOf PlaceholderKind.names k)) 0 := rereads_oneOf (by decide)
  have hnat : Rereads (option (natBits 64)) (Json.ofOption .ofNat) 0 :=
    rereads_option (rereads_natBits (by decide)) fun _ _ _ _ _ => by simp [Json.ofNat]
  obtain ⟨r, hin, hr, h⟩ := soundIn_of_record_bind hj h
  obtain ⟨kind, hkind, h⟩ := hr.required hnames (Nat.zero_le _) h
  obtain ⟨label, hlabel, h⟩ := hr.optional rereads_stringOption (Nat.zero_le _) h
  obtain ⟨labelHi, hlabelHi, h⟩ := hr.optional rereads_stringOption (Nat.zero_le _) h
  obtain ⟨needed, hneeded, h⟩ := hr.withDefault rereads_bool (Nat.zero_le _) ⟨rfl, .bool _⟩ h
  obtain ⟨default, hdefault, h⟩ := hr.optional rereads_stringOption (Nat.zero_le _) h
  obtain ⟨maxLength, hmax, h⟩ := hr.optional hnat (Nat.zero_le _) h
  obtain rfl := Option.some.inj h
  refine written_object (fun _ => rfl) rfl hin (by decide) ?names ?writable ?read
  case names =>
    simp only [List.map_append]
    exact (((((List.Sublist.refl ["type"]).append (Json.names_optionalField _ _ _)).append
      (Json.names_optionalField _ _ _)).append (.refl _)).append
      (Json.names_optionalField _ _ _)).append (Json.names_optionalField _ _ _)
  case writable =>
    simp only [List.forall_mem_append, List.forall_mem_singleton, and_assoc]
    exact ⟨hkind.writable, hlabel.writable_optional, hlabelHi.writable_optional,
      hneeded.writable, hdefault.writable_optional, hmax.writable_optional⟩
  case read =>
    refine hkind.required (by simp) ?_
    refine hlabel.optional (by simp) ?_
    refine hlabelHi.optional (by simp) ?_
    refine hneeded.withDefault (by simp) ?_
    refine hdefault.optional (by simp) ?_
    refine hmax.optional (by simp) ?_
    rfl

namespace AnimationKind

private theorem ofName_name (k : AnimationKind) : ofName k.name = k := by
  cases k <;> rfl

/-- A name that is not known is written as the one that it stands for. -/
theorem rereads : Rereads (string.map ofName) (fun k => .string k.name) 0 := by
  intro room j k _ _ _
  exact ⟨congrArg some (ofName_name k), .string _⟩

end AnimationKind

theorem AnimationSpec.rereads : Rereads AnimationSpec.decoder AnimationSpec.toJson 2 := by
  intro room j a hroom hj h
  obtain ⟨r, hin, hr, h⟩ := soundIn_of_record_bind hj h
  obtain ⟨kind, hkind, h⟩ := hr.required AnimationKind.rereads (Nat.zero_le _) h
  obtain ⟨duration, hduration, h⟩ := hr.withDefault rereads_float (Nat.zero_le _)
    (written_float (by decide) _) h
  obtain rfl := Option.some.inj h
  refine written_object (fun _ => rfl) rfl hin (by decide) (.refl _) ?writable ?read
  case writable =>
    simp only [List.forall_mem_cons]
    exact ⟨hkind.writable, hduration.writable, List.forall_mem_nil _⟩
  case read =>
    refine hkind.required (by simp) ?_
    refine hduration.withDefault (by simp) ?_
    rfl

namespace Layer

private theorem written_start (room : Nat) :
    Written Value.decoder Value.toJson room (.number 0.0) :=
  ⟨rfl, (written_float (by decide) room).writable⟩

private theorem written_finish (room : Nat) :
    Written Value.decoder Value.toJson room (.token .currentDuration) :=
  ⟨rfl, .string _⟩

theorem rereads : Rereads decoder toJson 5 := by
  intro room j l hroom hj h
  have hnames : Rereads (oneOf LayerKind.names)
      (fun k => .string (nameOf LayerKind.names k)) 0 := rereads_oneOf (by decide)
  have hmap : Rereads (keyMap Value.decoder) (Json.ofMap Value.toJson) 2 :=
    rereads_keyMap rereads_value
  have hmoves : Rereads (list AnimationSpec.decoder) (Json.ofList AnimationSpec.toJson) 4 :=
    rereads_list AnimationSpec.rereads
  have hlist : Rereads (list Value.decoder) (Json.ofList Value.toJson) 2 :=
    rereads_list rereads_value
  -- One step for each field, in the order in which the decoder reads them, and one to write it.
  obtain ⟨r, hin, hr, h⟩ := soundIn_of_record_bind hj h
  obtain ⟨id, hid, h⟩ := hr.required rereads_string (Nat.zero_le _) h
  obtain ⟨kind, hkind, h⟩ := hr.required hnames (Nat.zero_le _) h
  obtain ⟨start, hstart, h⟩ := hr.withDefault rereads_value (Nat.zero_le _) (written_start _) h
  obtain ⟨finish, hfinish, h⟩ := hr.withDefault rereads_value (Nat.zero_le _) (written_finish _) h
  obtain ⟨z, hz, h⟩ := hr.withDefault rereads_intBits (Nat.zero_le _)
    ⟨rfl, .number ⟨by decide, by decide⟩⟩ h
  obtain ⟨source, hsource, h⟩ := hr.optional rereads_valueOption (Nat.zero_le _) h
  obtain ⟨text, htext, h⟩ := hr.optional rereads_valueOption (Nat.zero_le _) h
  obtain ⟨style, hstyle, h⟩ := hr.withDefault hmap (by omega) (written_empty (by omega)) h
  obtain ⟨transform, htransform, h⟩ := hr.withDefault hmap (by omega) (written_empty (by omega)) h
  obtain ⟨animations, hanimations, h⟩ := hr.withDefault hmoves (by omega) (written_nil (by omega)) h
  obtain ⟨effects, heffects, h⟩ := hr.withDefault hlist (by omega) (written_nil (by omega)) h
  obtain rfl := Option.some.inj h
  refine written_object (fun _ => rfl) rfl hin (by decide) ?names ?writable ?read
  case names =>
    simp only [List.map_append]
    exact ((((((List.Sublist.refl ["id", "type", "start", "end", "z"]).append
      (Json.names_optionalField _ _ _)).append (Json.names_optionalField _ _ _)).append
      (Json.names_mapField _ _ _)).append (Json.names_mapField _ _ _)).append
      (Json.names_listField _ _ _)).append (Json.names_listField _ _ _)
  case writable =>
    simp only [List.forall_mem_append, List.forall_mem_cons, Json.forall_mem_mapField,
      Json.forall_mem_listField, and_assoc]
    exact ⟨hid.writable, hkind.writable, hstart.writable, hfinish.writable, hz.writable,
      List.forall_mem_nil _, hsource.writable_optional, htext.writable_optional,
      fun _ => hstyle.writable, fun _ => htransform.writable, fun _ => hanimations.writable,
      fun _ => heffects.writable⟩
  case read =>
    refine hid.required (by simp) ?_
    refine hkind.required (by simp) ?_
    refine hstart.withDefault (by simp) ?_
    refine hfinish.withDefault (by simp) ?_
    refine hz.withDefault (by simp) ?_
    refine hsource.optional (by simp) ?_
    refine htext.optional (by simp) ?_
    refine hstyle.mapField (by simp) ?_
    refine htransform.mapField (by simp) ?_
    refine hanimations.listField (by simp) ?_
    refine heffects.listField (by simp) ?_
    rfl

end Layer

namespace Definition

private theorem rereads_version : Rereads versionDecoder .string 0 := by
  intro room j v _ _ _
  exact ⟨rfl, .string v⟩

theorem rereads : Rereads decoder toJson 8 := by
  intro room j d hroom hj h
  have haspects : Rereads (option (oneOf AspectRatio.labels))
      (Json.ofOption fun a => .string a.label) 0 :=
    rereads_option (rereads_oneOf (by decide)) fun _ _ _ _ _ => by simp
  have hnat : Rereads (natBits 32) .ofNat 0 := rereads_natBits (by decide)
  have hfloats : Rereads (list float) (Json.ofList .ofFloat) 2 := rereads_list rereads_float
  have hstrings : Rereads (list string) (Json.ofList .string) 2 := rereads_list rereads_string
  obtain ⟨r, hin, hr, h⟩ := soundIn_of_record_bind hj h
  obtain ⟨version, hversion, h⟩ := hr.withDefault rereads_version (Nat.zero_le _) ⟨rfl, .string _⟩ h
  obtain ⟨id, hid, h⟩ := hr.required rereads_string (Nat.zero_le _) h
  obtain ⟨name, hname, h⟩ := hr.required DisplayName.rereads (by omega) h
  obtain ⟨category, hcategory, h⟩ :=
    hr.withDefault rereads_string (Nat.zero_le _) ⟨rfl, .string _⟩ h
  obtain ⟨aspect, haspect, h⟩ := hr.optional haspects (Nat.zero_le _) h
  obtain ⟨width, hwidth, h⟩ := hr.required hnat (Nat.zero_le _) h
  obtain ⟨height, hheight, h⟩ := hr.required hnat (Nat.zero_le _) h
  obtain ⟨fps, hfps, h⟩ := hr.withDefault hnat (Nat.zero_le _)
    ⟨rfl, .number ⟨by decide, by decide⟩⟩ h
  obtain ⟨presets, hpresets, h⟩ := hr.withDefault hfloats (by omega)
    (written_list (by omega) fun x hx => List.mem_singleton.1 hx ▸ written_float (by decide) _) h
  obtain ⟨themes, hthemes, h⟩ := hr.withDefault (rereads_keyMap Theme.rereads) (by omega)
    (written_empty (by omega)) h
  obtain ⟨placeholders, hplaceholders, h⟩ := hr.withDefault (rereads_keyMap Placeholder.rereads)
    (by omega) (written_empty (by omega)) h
  obtain ⟨layers, hlayers, h⟩ := hr.withDefault (rereads_list Layer.rereads) (by omega)
    (written_nil (by omega)) h
  obtain ⟨tags, htags, h⟩ := hr.withDefault hstrings (by omega) (written_nil (by omega)) h
  obtain rfl := Option.some.inj h
  refine written_object (fun _ => rfl) rfl hin (by decide) ?names ?writable ?read
  case names =>
    simp only [List.map_append]
    exact (((List.Sublist.refl ["schemaVersion", "id", "name", "category"]).append
      (Json.names_optionalField _ _ _)).append (.refl _)).append (Json.names_listField _ _ _)
  case writable =>
    simp only [List.forall_mem_append, List.forall_mem_cons, Json.forall_mem_listField, and_assoc]
    exact ⟨hversion.writable, hid.writable, hname.writable, hcategory.writable,
      List.forall_mem_nil _, haspect.writable_optional, hwidth.writable, hheight.writable,
      hfps.writable, hpresets.writable, hthemes.writable, hplaceholders.writable,
      hlayers.writable, List.forall_mem_nil _, fun _ => htags.writable⟩
  case read =>
    refine hversion.withDefault (by simp) ?_
    refine hid.required (by simp) ?_
    refine hname.required (by simp) ?_
    refine hcategory.withDefault (by simp) ?_
    refine haspect.optional (by simp) ?_
    refine hwidth.required (by simp) ?_
    refine hheight.required (by simp) ?_
    refine hfps.withDefault (by simp) ?_
    refine hpresets.withDefault (by simp) ?_
    refine hthemes.withDefault (by simp) ?_
    refine hplaceholders.withDefault (by simp) ?_
    refine hlayers.withDefault (by simp) ?_
    refine htags.listField (by simp) ?_
    rfl

private theorem ofText_eq_ok_iff {text : String} {d : Definition} :
    ofText text = .ok d ↔ Json.decode? decoder text = some d ∧ d.validate = .ok () := by
  rw [ofText, ofTextFrom]
  cases Json.decode? decoder text with
  | none => exact iff_of_false nofun nofun
  | some d' =>
    simp only [bind, Except.bind, Option.some_inj]
    cases hv : d'.validate with
    | error flaw =>
      refine iff_of_false nofun ?_
      rintro ⟨rfl, h⟩
      exact nomatch hv.symm.trans h
    | ok u =>
      constructor
      · intro h
        obtain rfl := Except.ok.inj h
        exact ⟨rfl, hv⟩
      · rintro ⟨rfl, -⟩
        rfl

/-- What was decoded from a text is decoded again from its own text. -/
private theorem decode?_text {text : String} {d : Definition}
    (h : Json.decode? decoder text = some d) : Json.decode? decoder d.text = some d := by
  obtain ⟨j, hj, hd⟩ := Option.bind_eq_some_iff.1 h
  have hwritten := rereads (by decide) (Json.sound_of_parse? hj) hd
  rw [Json.decode?, Definition.text, Json.parse?_pretty hwritten.writable]
  exact hwritten.decoded

private theorem load_eq_ok {files : FileTree} {path text : String} {d : Definition}
    (hread : files.readText path = .ok text) (h : ofText text = .ok d) :
    load files path = .ok d := by
  obtain ⟨hd, hv⟩ := ofText_eq_ok_iff.1 h
  rw [load, mapError_eq_ok_iff.2 hread]
  simp only [ofTextFrom, hd, mapError_eq_ok_iff.2 hv, bind, Except.bind, pure, Except.pure]

private theorem readText_of_save {d : Definition} {files files' : FileTree} {path : String}
    (h : d.save files path = .ok files') : files'.readText path = .ok d.text := by
  rw [save, saving, Steps.outcome_adaptExcept] at h
  exact FileTree.readText_of_save (mapError_eq_ok_iff.1 h)

/-- A definition that was read from a text is written as a text that gives it again. Saved to a
file, it is what the file is loaded as and is saved from there as the same text. -/
theorem load_of_save {text : String} {d : Definition} (h : ofText text = .ok d) :
    ofText d.text = .ok d ∧
      ∀ {files files' : FileTree} {path : String}, d.save files path = .ok files' →
        load files' path = .ok d ∧ files'.readText path = .ok d.text := by
  obtain ⟨hd, hv⟩ := ofText_eq_ok_iff.1 h
  have hagain : ofText d.text = .ok d := ofText_eq_ok_iff.2 ⟨decode?_text hd, hv⟩
  refine ⟨hagain, fun hsave => ?_⟩
  have hread := readText_of_save hsave
  exact ⟨load_eq_ok hread hagain, hread⟩

/-- A card whose version is a number and whose layer is a list of its first fields. -/
private def card : String :=
  "\x7b\"schemaVersion\":1.50,\"id\":\"card\",\"name\":\"Card\",\"width\":9,\"height\":16,"
    ++ "\"layers\":[[\"title\",\"text\",0.5]]\x7d"

theorem load_saved_card :
    ∃ d files, ofText card = .ok d ∧ d.save .empty "cards/card.json" = .ok files ∧
      load files "cards/card.json" = .ok d := by
  have hruns : ((ofText card).bind (·.save .empty "cards/card.json")).isOk := by decide +kernel
  cases hd : ofText card with
  | error e => exact absurd hruns (by rw [hd]; exact Bool.false_ne_true)
  | ok d =>
    cases hsave : d.save .empty "cards/card.json" with
    | error e => exact absurd hruns (by rw [hd, Except.bind, hsave]; exact Bool.false_ne_true)
    | ok files => exact ⟨d, files, rfl, hsave, ((load_of_save hd).2 hsave).1⟩

end Definition

end MotionTemplate
