import MotionTemplate.Preview.Previewer
import MotionTemplate.Failure

/-! The configuration of the program: where it is found, what makes it unusable, and how it is
kept. A configuration that was read or written is always a usable one. -/
namespace MotionTemplate

/-- How previews play when nothing else is said. -/
structure PreviewDefaults where
  looping : Bool
  minAnimationSecs : Float
  maxAnimationSecs : Float
  /-- The longest duration besides the presets of a template. -/
  maxDurationSecs : Float
deriving DecidableEq

namespace PreviewDefaults

def standard : PreviewDefaults := ⟨true, 0.05, 2.0, 180.0⟩

def bounds (p : PreviewDefaults) : DurationBounds := ⟨p.maxDurationSecs⟩

def selector (p : PreviewDefaults) : AnimationSelector Float :=
  .new p.minAnimationSecs p.maxAnimationSecs

/-- What is reported when the range of animations is taken over. -/
def events (p : PreviewDefaults) : List Event :=
  AnimationSelector.newEvents p.minAnimationSecs p.maxAnimationSecs

def options (p : PreviewDefaults) : PreviewOptions where
  looping := p.looping
  bounds := p.bounds
  selector := p.selector
  containerWidth := none

def decoder : Decoder PreviewDefaults := fun room j => do
  let r ← Decoder.record
    ["loop_playback", "min_animation_secs", "max_animation_secs", "max_duration_secs"] room j
  return {
    looping := ← r.withDefault "loop_playback" Decoder.bool standard.looping
    minAnimationSecs :=
      ← r.withDefault "min_animation_secs" Decoder.float standard.minAnimationSecs
    maxAnimationSecs :=
      ← r.withDefault "max_animation_secs" Decoder.float standard.maxAnimationSecs
    maxDurationSecs :=
      ← r.withDefault "max_duration_secs" Decoder.float standard.maxDurationSecs }

def toJson (p : PreviewDefaults) : Json :=
  .object [("loop_playback", .bool p.looping), ("min_animation_secs", .ofFloat p.minAnimationSecs),
    ("max_animation_secs", .ofFloat p.maxAnimationSecs),
    ("max_duration_secs", .ofFloat p.maxDurationSecs)]

end PreviewDefaults

/-- The service that renders videos. -/
structure RenderService where
  baseUrl : String
  pollIntervalMs : Nat
  requestTimeoutSecs : Nat
  /-- Sent with every request. -/
  apiToken : Option String
deriving DecidableEq

namespace RenderService

def standard : RenderService := ⟨"http://localhost:8000/api/v1", 1500, 30, none⟩

def decoder : Decoder RenderService := fun room j => do
  let r ← Decoder.record
    ["base_url", "poll_interval_ms", "request_timeout_secs", "api_token"] room j
  return {
    baseUrl := ← r.withDefault "base_url" Decoder.string standard.baseUrl
    pollIntervalMs := ← r.withDefault "poll_interval_ms" (Decoder.natBits 64)
      standard.pollIntervalMs
    requestTimeoutSecs := ← r.withDefault "request_timeout_secs" (Decoder.natBits 64)
      standard.requestTimeoutSecs
    apiToken := ← r.optional "api_token" Decoder.string }

def toJson (s : RenderService) : Json :=
  .object [("base_url", .string s.baseUrl), ("poll_interval_ms", .ofNat s.pollIntervalMs),
    ("request_timeout_secs", .ofNat s.requestTimeoutSecs),
    ("api_token", .ofOption .string s.apiToken)]

end RenderService

structure LogSettings where
  /-- The filter of what is logged. -/
  level : String
  json : Bool
  /-- Where the log goes instead of the error stream. -/
  file : Option String
deriving DecidableEq

namespace LogSettings

def standard : LogSettings := ⟨"info", false, none⟩

def decoder : Decoder LogSettings := fun room j => do
  let r ← Decoder.record ["level", "json", "file"] room j
  return {
    level := ← r.required "level" Decoder.string
    json := ← r.required "json" Decoder.bool
    file := ← r.nullable "file" Decoder.string }

def toJson (s : LogSettings) : Json :=
  .object [("level", .string s.level), ("json", .bool s.json), ("file", .ofOption .string s.file)]

end LogSettings

/-- The variables that the program is started with. -/
abbrev Environment := KeyMap String

namespace Environment

/-- A directory of the user: the one a variable names, or one below the home directory. -/
private def userDirectory (env : Environment) (variableName below : String) : String :=
  (env.find? variableName).getD (Path.join ((env.find? "HOME").getD "/tmp") below)

/-- Where the configuration is found. -/
def configPath (env : Environment) : String :=
  Path.join (env.userDirectory "XDG_CONFIG_HOME" ".config") "karo/config.json"

/-- Where templates are looked up when nothing is configured. -/
def templatesPath (env : Environment) : String :=
  Path.join (env.userDirectory "XDG_DATA_HOME" ".local/share") "karo/templates"

end Environment

structure Config where
  /-- Where templates are looked up by name. -/
  templatesDir : String
  preview : PreviewDefaults
  renderService : RenderService
  logging : LogSettings
deriving DecidableEq

/-- What makes a configuration unusable. -/
inductive ConfigFlaw where
  | minAnimation
  | maxAnimation
  | maxDuration
  | noBaseUrl
  | noPollInterval
deriving DecidableEq

namespace ConfigFlaw

def message : ConfigFlaw → String
  | minAnimation => "preview.min_animation_secs must be > 0"
  | maxAnimation => "preview.max_animation_secs must be >= preview.min_animation_secs"
  | maxDuration => "preview.max_duration_secs must be > 0"
  | noBaseUrl => "render_service.base_url must not be empty"
  | noPollInterval => "render_service.poll_interval_ms must be > 0"

end ConfigFlaw

namespace Config

/-- The configuration of a program that has none. -/
def standard (env : Environment) : Config := ⟨env.templatesPath, .standard, .standard, .standard⟩

def decoder : Decoder Config := fun room j => do
  let r ← Decoder.record ["templates_dir", "preview", "render_service", "logging"] room j
  return {
    templatesDir := ← r.required "templates_dir" Decoder.string
    preview := ← r.required "preview" PreviewDefaults.decoder
    renderService := ← r.required "render_service" RenderService.decoder
    logging := ← r.required "logging" LogSettings.decoder }

def toJson (c : Config) : Json :=
  .object [("templates_dir", .string c.templatesDir), ("preview", c.preview.toJson),
    ("render_service", c.renderService.toJson), ("logging", c.logging.toJson)]

/-- The first flaw of a configuration. -/
def flaw? (c : Config) : Option ConfigFlaw :=
  let p := c.preview
  if !(p.minAnimationSecs.isFinite && 0.0 < p.minAnimationSecs) then some .minAnimation
  else if !(p.maxAnimationSecs.isFinite && p.minAnimationSecs ≤ p.maxAnimationSecs) then
    some .maxAnimation
  else if !(p.maxDurationSecs.isFinite && 0.0 < p.maxDurationSecs) then some .maxDuration
  else if Text.isBlankText c.renderService.baseUrl then some .noBaseUrl
  else if c.renderService.pollIntervalMs = 0 then some .noPollInterval
  else none

def validate (c : Config) : Except Failure Unit :=
  match c.flaw? with
  | some flaw => .error (.config flaw.message)
  | none => .ok ()

/-- Reads a configuration. -/
def loadFrom (files : FileTree) (path : String) : Except Failure Config := do
  if !files.pathExists path then throw (.fileNotFound path)
  let text ← (files.readText path).mapError .file
  match Json.decode? decoder text with
  | none => throw .data
  | some c =>
    c.validate
    return c

/-- The text that a configuration is kept as. -/
def text (c : Config) : String := c.toJson.pretty

/-- Writes a usable configuration and creates the directories above it. -/
def saving (c : Config) (path : String) : Steps Failure Unit := do
  if let .error e := c.validate then throw e
  EStateM.adaptExcept (fun e => .file e.2) (FileTree.saving path (.text c.text))

def saveTo (c : Config) (files : FileTree) (path : String) : Except Failure FileTree :=
  (c.saving path).outcome files

/-- The configuration of the user; one that cannot be read gives way to the standard one. -/
def load (env : Environment) (files : FileTree) : Config :=
  match loadFrom files env.configPath with
  | .ok c => c
  | .error _ => standard env

/-- What is reported when the configuration of the user is read. -/
def loadEvents (env : Environment) (files : FileTree) : List Event :=
  if !files.pathExists env.configPath then []
  else
    match loadFrom files env.configPath with
    | .ok _ => []
    | .error e =>
      [⟨.warning,
        "Failed to load config at " ++ Text.quotedPath env.configPath ++ ": " ++ e.message, []⟩]

/-- Writes the configuration of the user. -/
def save (c : Config) (env : Environment) (files : FileTree) : Except Failure FileTree :=
  c.saveTo files env.configPath

end Config

end MotionTemplate
