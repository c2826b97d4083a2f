import MotionTemplate.Canvas
import MotionTemplate.Json.Printer
import MotionTemplate.Template.Layer

/-! Template definitions: the versioned description of one composition, with the themes and the
placeholders that a caller may choose from. -/
namespace MotionTemplate

/-- A display name, with a Hindi form where there is one. -/
inductive DisplayName where
  | localized (en : String) (hi : Option String)
  | plain (name : String)
deriving DecidableEq

namespace DisplayName

/-- The English name, or the only one. -/
def en : DisplayName → String
  | localized en _ => en
  | plain name => name

def hi? : DisplayName → Option String
  | localized _ hi => hi
  | plain _ => none

/-- The object form is read as a whole first, and it is no array. -/
def decoder : Decoder DisplayName := fun room j => do
  let _ ← Decoder.json room j
  match j with
  | .string name => return .plain name
  | .object _ =>
    let r ← Decoder.record ["en", "hi"] room j
    return .localized (← r.required "en" Decoder.string) (← r.optional "hi" Decoder.string)
  | _ => none

def toJson : DisplayName → Json
  | localized en hi => .object (("en", .string en) :: Json.optionalField "hi" .string hi)
  | plain name => .string name

end DisplayName

/-- The labelled shapes of a canvas. -/
inductive AspectRatio where
  | portrait
  | square
  | landscape
  | classic
deriving DecidableEq

namespace AspectRatio

def labels : List (String × AspectRatio) :=
  [("9:16", .portrait), ("1:1", .square), ("16:9", .landscape), ("4:3", .classic)]

def label (a : AspectRatio) : String := Decoder.nameOf labels a

/-- Width over height. -/
def ratio : AspectRatio → Float
  | portrait => 9.0 / 16.0
  | square => 1.0
  | landscape => 16.0 / 9.0
  | classic => 4.0 / 3.0

end AspectRatio

/-- A palette with its fonts. -/
structure Theme where
  name : Option String
  colors : KeyMap String
  fonts : KeyMap String
deriving DecidableEq

namespace Theme

def decoder : Decoder Theme := fun room j => do
  let r ← Decoder.record ["name", "colors", "fonts"] room j
  return {
    name := ← r.optional "name" Decoder.string
    colors := ← r.withDefault "colors" (Decoder.keyMap Decoder.string) ∅
    fonts := ← r.withDefault "fonts" (Decoder.keyMap Decoder.string) ∅ }

def toJson (t : Theme) : Json :=
  .object <| Json.optionalField "name" .string t.name
    ++ [("colors", .ofMap .string t.colors), ("fonts", .ofMap .string t.fonts)]

end Theme

/-- What a placeholder accepts. -/
inductive PlaceholderKind where
  | video
  | image
  | logo
  | text
  | audioMarker
deriving DecidableEq

namespace PlaceholderKind

def names : List (String × PlaceholderKind) :=
  [("video", .video), ("image", .image), ("logo", .logo), ("text", .text),
   ("audio_marker", .audioMarker)]

/-- Only text falls back on its declared default. -/
def usesDefault (k : PlaceholderKind) : Bool := k = .text

end PlaceholderKind

/-- A slot that the caller fills. -/
structure Placeholder where
  kind : PlaceholderKind
  label : Option String
  labelHi : Option String
  required : Bool
  /-- The text to show when the caller supplies none. -/
  default : Option String
  /-- The longest text in characters. -/
  maxLength : Option Nat
deriving DecidableEq

namespace Placeholder

def ofKind (kind : PlaceholderKind) : Placeholder := ⟨kind, none, none, false, none, none⟩

def ofText (default : String) : Placeholder := { ofKind .text with default := some default }

def decoder : Decoder Placeholder := fun room j => do
  let r ← Decoder.record ["type", "label", "labelHi", "required", "default", "maxLength"] room j
  return {
    kind := ← r.required "type" (Decoder.oneOf PlaceholderKind.names)
    label := ← r.optional "label" Decoder.string
    labelHi := ← r.optional "labelHi" Decoder.string
    required := ← r.withDefault "required" Decoder.bool false
    default := ← r.optional "default" Decoder.string
    maxLength := ← r.optional "maxLength" (Decoder.natBits 64) }

def toJson (p : Placeholder) : Json :=
  .object <|
    [("type", .string (Decoder.nameOf PlaceholderKind.names p.kind))]
    ++ Json.optionalField "label" .string p.label
    ++ Json.optionalField "labelHi" .string p.labelHi
    ++ [("required", .bool p.required)]
    ++ Json.optionalField "default" .string p.default
    ++ Json.optionalField "maxLength" .ofNat p.maxLength

end Placeholder

/-- A template. -/
structure Definition where
  schemaVersion : String
  id : String
  name : DisplayName
  category : String
  aspectRatio : Option AspectRatio
  width : Nat
  height : Nat
  fps : Nat
  /-- The durations on offer, in seconds. The first one is the default. -/
  durationPresets : List Float
  themes : KeyMap Theme
  placeholders : KeyMap Placeholder
  layers : List Layer
  tags : List String
deriving DecidableEq

namespace Definition

/-- The version that new definitions carry. -/
def currentVersion : String := "1.0"

/-- The duration of a definition without presets. -/
def fallbackSecs : Float := 15.0

def new (id name : String) (width height fps : Nat) : Definition where
  schemaVersion := currentVersion
  id
  name := .plain name
  category := ""
  aspectRatio := none
  width
  height
  fps
  durationPresets := [fallbackSecs]
  themes := ∅
  placeholders := ∅
  layers := []
  tags := []

def canvas (d : Definition) : Size := ⟨Float.ofNat d.width, Float.ofNat d.height⟩

def defaultDuration (d : Definition) : Float := d.durationPresets.head?.getD fallbackSecs

/-- The first theme in the order of the ids. -/
def defaultThemeId? (d : Definition) : Option String := d.themes.keys.head?

def layer? (d : Definition) (id : String) : Option Layer := d.layers.find? (·.id = id)

/-- Whether a duration is one of the presets, up to a billionth. -/
def isPreset (d : Definition) (secs : Float) : Bool :=
  d.durationPresets.any fun preset => (preset - secs).abs < 1e-9

/-- A version is a text or a number. -/
def versionDecoder : Decoder String
  | _, .string s => some s
  | _, .number n => some (Json.numeralText n)
  | _, _ => none

def decoder : Decoder Definition := fun room j => do
  let r ← Decoder.record
    ["schemaVersion", "id", "name", "category", "aspectRatio", "width", "height", "fps",
     "durationPresets", "themes", "placeholders", "layers", "tags"] room j
  return {
    schemaVersion := ← r.withDefault "schemaVersion" versionDecoder currentVersion
    id := ← r.required "id" Decoder.string
    name := ← r.required "name" DisplayName.decoder
    category := ← r.withDefault "category" Decoder.string ""
    aspectRatio := ← r.optional "aspectRatio" (Decoder.oneOf AspectRatio.labels)
    width := ← r.required "width" (Decoder.natBits 32)
    height := ← r.required "height" (Decoder.natBits 32)
    fps := ← r.withDefault "fps" (Decoder.natBits 32) 30
    durationPresets := ← r.withDefault "durationPresets" (Decoder.list Decoder.float) [fallbackSecs]
    themes := ← r.withDefault "themes" (Decoder.keyMap Theme.decoder) ∅
    placeholders := ← r.withDefault "placeholders" (Decoder.keyMap Placeholder.decoder) ∅
    layers := ← r.withDefault "layers" (Decoder.list Layer.decoder) []
    tags := ← r.withDefault "tags" (Decoder.list Decoder.string) [] }

def toJson (d : Definition) : Json :=
  .object <|
    [("schemaVersion", .string d.schemaVersion), ("id", .string d.id), ("name", d.name.toJson),
     ("category", .string d.category)]
    ++ Json.optionalField "aspectRatio" (fun a => .string a.label) d.aspectRatio
    ++ [("width", .ofNat d.width), ("height", .ofNat d.height), ("fps", .ofNat d.fps),
        ("durationPresets", .ofList .ofFloat d.durationPresets),
        ("themes", .ofMap Theme.toJson d.themes),
        ("placeholders", .ofMap Placeholder.toJson d.placeholders),
        ("layers", .ofList Layer.toJson d.layers)]
    ++ Json.listField "tags" .string d.tags

end Definition

end MotionTemplate
