import MotionTemplate.Config
import MotionTemplate.Proofs.Json.Records
import MotionTemplate.Proofs.Json.Spelling
import MotionTemplate.Proofs.StoredText

/-! Configurations that are kept. What is refused does not reach the disk, what was written is read
again, and a range of animations that passes the checks is one that a selector takes. -/
namespace MotionTemplate

open Decoder

/-- Times that previews can play with. -/
structure PreviewDefaults.Usable (p : PreviewDefaults) : Prop where
  min_finite : p.minAnimationSecs.isFinite
  min_pos : 0 < p.minAnimationSecs
  max_finite : p.maxAnimationSecs.isFinite
  min_le_max : p.minAnimationSecs ≤ p.maxAnimationSecs
  duration_finite : p.maxDurationSecs.isFinite
  duration_pos : 0 < p.maxDurationSecs

theorem PreviewDefaults.usable_standard : standard.Usable :=
  ⟨by decide, by decide, by decide, by decide, by decide, by decide⟩

/-- The checks of a selector are among those of a configuration. -/
theorem PreviewDefaults.Usable.selectable {p : PreviewDefaults} (h : p.Usable) :
    AnimationSelector.usable p.minAnimationSecs p.maxAnimationSecs := by
  simp only [AnimationSelector.usable, Measure.isFinite_float, Bool.and_eq_true,
    decide_eq_true_iff]
  exact ⟨⟨⟨h.min_finite, h.max_finite⟩, h.min_pos⟩, h.min_le_max⟩

variable {room : Nat}

theorem PreviewDefaults.written {p : PreviewDefaults} (h : p.Usable) (hroom : 2 ≤ room) :
    Written decoder toJson room p := by
  have hmin := written_float h.min_finite (room - 1)
  have hmax := written_float h.max_finite (room - 1)
  have hduration := written_float h.duration_finite (room - 1)
  have hlooping : Written bool .bool (room - 1) p.looping := ⟨rfl, .bool _⟩
  refine written_object (fun _ => rfl) rfl hroom (by decide) (.refl _) ?writable ?read
  case writable =>
    simp only [List.forall_mem_cons]
    exact ⟨hlooping.writable, hmin.writable, hmax.writable, hduration.writable,
      List.forall_mem_nil _⟩
  case read =>
    refine hlooping.withDefault (by simp) ?_
    refine hmin.withDefault (by simp) ?_
    refine hmax.withDefault (by simp) ?_
    refine hduration.withDefault (by simp) ?_
    rfl

private theorem written_stringOption (room : Nat) (s : Option String) :
    Written (option string) (Json.ofOption .string) room s :=
  written_option fun a _ => ⟨⟨rfl, .string a⟩, by simp⟩

/-- The counts of a service are words of 64 bits. -/
structure RenderService.WordSized (s : RenderService) : Prop where
  poll : s.pollIntervalMs < 2 ^ 64
  timeout : s.requestTimeoutSecs < 2 ^ 64

theorem RenderService.written {s : RenderService} (h : s.WordSized) (hroom : 2 ≤ room) :
    Written decoder toJson room s := by
  have hurl : Written string .string (room - 1) s.baseUrl := ⟨rfl, .string _⟩
  have hpoll : Written (natBits 64) .ofNat (room - 1) s.pollIntervalMs :=
    written_natBits (by decide) h.poll _
  have htimeout : Written (natBits 64) .ofNat (room - 1) s.requestTimeoutSecs :=
    written_natBits (by decide) h.timeout _
  have htoken := written_stringOption (room - 1) s.apiToken
  refine written_object (fun _ => rfl) rfl hroom (by decide) (.refl _) ?writable ?read
  case writable =>
    simp only [List.forall_mem_cons]
    exact ⟨hurl.writable, hpoll.writable, htimeout.writable, htoken.writable,
      List.forall_mem_nil _⟩
  case read =>
    refine hurl.withDefault (by simp) ?_
    refine hpoll.withDefault (by simp) ?_
    refine htimeout.withDefault (by simp) ?_
    refine htoken.withDefault (by simp) ?_
    rfl

theorem LogSettings.written (s : LogSettings) (hroom : 2 ≤ room) :
    Written decoder toJson room s := by
  have hlevel : Written string .string (room - 1) s.level := ⟨rfl, .string _⟩
  have hjson : Written bool .bool (room - 1) s.json := ⟨rfl, .bool _⟩
  have hfile := written_stringOption (room - 1) s.file
  refine written_object (fun _ => rfl) rfl hroom (by decide) (.refl _) ?writable ?read
  case writable =>
    simp only [List.forall_mem_cons]
    exact ⟨hlevel.writable, hjson.writable, hfile.writable, List.forall_mem_nil _⟩
  case read =>
    refine hlevel.required (by simp) ?_
    refine hjson.required (by simp) ?_
    refine hfile.nullable (by simp) ?_
    rfl

namespace Config

variable {c : Config} {files files' : FileTree} {path : String}

theorem written (hp : c.preview.Usable) (hs : c.renderService.WordSized) (hroom : 3 ≤ room) :
    Written decoder toJson room c := by
  have hdir : Written string .string (room - 1) c.templatesDir := ⟨rfl, .string _⟩
  have hpreview := PreviewDefaults.written hp (show 2 ≤ room - 1 by omega)
  have hservice := RenderService.written hs (show 2 ≤ room - 1 by omega)
  have hlogging := c.logging.written (show 2 ≤ room - 1 by omega)
  refine written_object (fun _ => rfl) rfl (by omega) (by decide) (.refl _) ?writable ?read
  case writable =>
    simp only [List.forall_mem_cons]
    exact ⟨hdir.writable, hpreview.writable, hservice.writable, hlogging.writable,
      List.forall_mem_nil _⟩
  case read =>
    refine hdir.required (by simp) ?_
    refine hpreview.required (by simp) ?_
    refine hservice.required (by simp) ?_
    refine hlogging.required (by simp) ?_
    rfl

private theorem guard_eq_none_iff {flaw : ConfigFlaw} {refused : Prop} [Decidable refused]
    {rest : Option ConfigFlaw} :
    (if refused then some flaw else rest) = none ↔ ¬refused ∧ rest = none := by
  split
  · next h => exact iff_of_false nofun fun hn => hn.1 h
  · next h => exact (and_iff_right h).symm

private theorem not_flawed_iff {q : Prop} {finite : Bool} [Decidable q] :
    ¬(!(finite && decide q)) = true ↔ finite = true ∧ q := by
  rw [Bool.not_eq_true, Bool.not_eq_false', Bool.and_eq_true, decide_eq_true_iff]

/-- The checks of a configuration, in the order in which they are made. -/
private theorem flaw?_eq_none_iff : c.flaw? = none ↔ c.preview.Usable ∧
    Text.isBlankText c.renderService.baseUrl = false ∧ c.renderService.pollIntervalMs ≠ 0 := by
  simp only [flaw?, guard_eq_none_iff, not_flawed_iff]
  rw [Bool.not_eq_true]
  constructor
  · rintro ⟨⟨hmin, hpos⟩, ⟨hmax, hle⟩, ⟨hduration, hlong⟩, hurl, hpoll, -⟩
    exact ⟨⟨hmin, hpos, hmax, hle, hduration, hlong⟩, hurl, hpoll⟩
  · rintro ⟨⟨hmin, hpos, hmax, hle, hduration, hlong⟩, hurl, hpoll⟩
    exact ⟨⟨hmin, hpos⟩, ⟨hmax, hle⟩, ⟨hduration, hlong⟩, hurl, hpoll, trivial⟩

theorem validate_eq_ok_iff : c.validate = .ok () ↔ c.preview.Usable ∧
    Text.isBlankText c.renderService.baseUrl = false ∧ c.renderService.pollIntervalMs ≠ 0 := by
  rw [← flaw?_eq_none_iff, validate]
  cases c.flaw? with
  | none => exact iff_of_true rfl rfl
  | some flaw => exact iff_of_false nofun nofun

private theorem loadFrom_of_readText {text : String} (h : files.readText path = .ok text) :
    loadFrom files path = (Json.decode? decoder text).elim (.error .data) fun c =>
      c.validate.bind fun _ => .ok c := by
  rw [loadFrom, mapError_eq_ok_iff.2 h, FileTree.pathExists_of_readText h]
  cases hdecoded : Json.decode? decoder text with
  | none =>
    simp only [hdecoded, bind, Except.bind]
    rfl
  | some c =>
    simp only [hdecoded, bind, Except.bind]
    rfl

private theorem checked_eq_ok_iff {c' : Config} :
    (c'.validate.bind fun _ => .ok c') = .ok c ↔ c' = c ∧ c.validate = .ok () := by
  constructor
  · intro h
    cases hv : c'.validate with
    | error e =>
      rw [hv] at h
      cases h
    | ok =>
      rw [hv] at h
      obtain rfl := Except.ok.inj h
      exact ⟨rfl, hv⟩
  · rintro ⟨rfl, hv⟩
    rw [hv]
    rfl

theorem loadFrom_eq_ok_iff : loadFrom files path = .ok c ↔ ∃ text,
    files.readText path = .ok text ∧ Json.decode? decoder text = some c ∧ c.validate = .ok () := by
  constructor
  · intro h
    cases hread : files.readText path with
    | error e =>
      rw [loadFrom, hread] at h
      cases hexists : files.pathExists path <;> rw [hexists] at h <;> cases h
    | ok text =>
      rw [loadFrom_of_readText hread] at h
      cases hdecoded : Json.decode? decoder text with
      | none =>
        rw [hdecoded] at h
        cases h
      | some c' =>
        rw [hdecoded] at h
        obtain ⟨rfl, hv⟩ := checked_eq_ok_iff.1 h
        exact ⟨text, rfl, hdecoded, hv⟩
  · rintro ⟨text, hread, hdecoded, hv⟩
    rw [loadFrom_of_readText hread, hdecoded]
    exact checked_eq_ok_iff.2 ⟨rfl, hv⟩

theorem validate_of_loadFrom (h : loadFrom files path = .ok c) : c.validate = .ok () := by
  obtain ⟨text, -, -, hv⟩ := loadFrom_eq_ok_iff.1 h
  exact hv

theorem validate_standard (env : Environment) : (standard env).validate = .ok () :=
  validate_eq_ok_iff.2 ⟨PreviewDefaults.usable_standard,
    show Text.isBlankText RenderService.standard.baseUrl = false by decide,
    show RenderService.standard.pollIntervalMs ≠ 0 by decide⟩

/-- A file that cannot be loaded gives way to a configuration that is usable. -/
theorem validate_load (env : Environment) (files : FileTree) :
    (load env files).validate = .ok () := by
  rw [load]
  split
  · next c h => exact validate_of_loadFrom h
  · exact validate_standard env

/-- What a configuration is written as is decoded to it. -/
theorem decode?_text (hp : c.preview.Usable) (hs : c.renderService.WordSized) :
    Json.decode? decoder c.text = some c := by
  have hwritten : Written decoder toJson fullRoom c := written hp hs (by decide)
  rw [Json.decode?, text, Json.parse?_pretty hwritten.writable]
  exact hwritten.decoded

/-- An unusable configuration is refused before anything is done. -/
theorem saving_of_unusable {e : Failure} (h : c.validate = .error e) (path : String)
    (files : FileTree) : c.saving path files = .error e files := by
  rw [saving, h]
  rfl

theorem saveTo_of_unusable {e : Failure} (h : c.validate = .error e) (files : FileTree)
    (path : String) : c.saveTo files path = .error e := by
  rw [saveTo, Steps.outcome, saving_of_unusable h]

theorem saveTo_eq_ok_iff : c.saveTo files path = .ok files' ↔
    c.validate = .ok () ∧ files.save path c.text = .ok files' := by
  cases hv : c.validate with
  | error e => simp [saveTo_of_unusable hv]
  | ok =>
    have hsave : c.saveTo files path = (files.save path c.text).mapError fun e => .file e.2 := by
      rw [saveTo, saving, hv]
      simp only [Steps.outcome_adaptExcept]
      rfl
    rw [hsave]
    exact mapError_eq_ok_iff.trans (and_iff_right rfl).symm

theorem loadFrom_of_saveTo (hs : c.renderService.WordSized) (h : c.saveTo files path = .ok files') :
    loadFrom files' path = .ok c := by
  obtain ⟨hv, hsave⟩ := saveTo_eq_ok_iff.1 h
  have hp := (validate_eq_ok_iff.1 hv).1
  exact loadFrom_eq_ok_iff.2 ⟨c.text, FileTree.readText_of_save hsave, decode?_text hp hs, hv⟩

/-- A configuration is usable wherever it comes from and wherever it goes. One that is not usable
is refused and nothing on disk changes; one that was saved is loaded again as it is. What is loaded,
from files that hold anything, passes the checks, and previews then take over its range of
animations without a warning. -/
theorem usable_when_kept (c : Config) (files : FileTree) (path : String) :
    (∀ e, c.validate = .error e →
      c.saveTo files path = .error e ∧ c.saving path files = .error e files) ∧
    (∀ files', c.renderService.WordSized → c.saveTo files path = .ok files' →
      loadFrom files' path = .ok c) ∧
    (loadFrom files path = .ok c → c.validate = .ok ()) ∧
    (∀ env, (load env files).validate = .ok ()) ∧
    (c.validate = .ok () →
      c.preview.selector = ⟨c.preview.minAnimationSecs, c.preview.maxAnimationSecs⟩ ∧
        c.preview.events = []) := by
  refine ⟨fun e he => ⟨saveTo_of_unusable he files path, saving_of_unusable he path files⟩,
    fun files' hs h => loadFrom_of_saveTo hs h, validate_of_loadFrom,
    fun env => validate_load env files, fun h => ?_⟩
  have hselectable := (validate_eq_ok_iff.1 h).1.selectable
  exact ⟨if_pos hselectable, if_pos hselectable⟩

/-- A service other than the standard one is kept; without a pause between polls it is not. -/
theorem other_service_kept :
    let c : Config := { standard ∅ with renderService.baseUrl := "https://render.example/api" }
    let restless : Config := { c with renderService.pollIntervalMs := 0 }
    (∃ files, c.saveTo .empty "nested/config.json" = .ok files ∧
      loadFrom files "nested/config.json" = .ok c ∧ c.validate = .ok () ∧
      c.preview.selector = ⟨0.05, 2.0⟩) ∧
    restless.saving "config.json" .empty =
      .error (.config "render_service.poll_interval_ms must be > 0") .empty := by
  intro c restless
  have hsaved : (c.saveTo .empty "nested/config.json").isOk := by decide +kernel
  have hs : c.renderService.WordSized := ⟨by decide, by decide⟩
  constructor
  · cases hfiles : c.saveTo .empty "nested/config.json" with
    | error e => exact absurd hsaved (by rw [hfiles]; exact Bool.false_ne_true)
    | ok files =>
      obtain ⟨-, hkept, -⟩ := usable_when_kept c .empty "nested/config.json"
      obtain ⟨-, -, hloaded, -, htaken⟩ := usable_when_kept c files "nested/config.json"
      have hload := hkept files hs hfiles
      exact ⟨files, rfl, hload, hloaded hload, (htaken (hloaded hload)).1⟩
  · have hflaw : restless.flaw? = some .noPollInterval := by decide +kernel
    obtain ⟨hrefused, -⟩ := usable_when_kept restless .empty "config.json"
    exact (hrefused _ (by rw [validate, hflaw]; rfl)).2

end Config

end MotionTemplate
