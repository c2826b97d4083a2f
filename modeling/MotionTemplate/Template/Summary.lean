import MotionTemplate.Template.Definition

/-! What a picker of templates needs to know of one: its names, its shape and all that a caller
may customize. -/
namespace MotionTemplate

/-- The editor that fills a placeholder. -/
inductive FieldKind where
  | text
  | image
  | video
deriving DecidableEq

namespace FieldKind

def names : List (String × FieldKind) := [("text", .text), ("image", .image), ("video", .video)]

def ofPlaceholder : PlaceholderKind → FieldKind
  | .video => video
  | .image | .logo => image
  | .text | .audioMarker => text

end FieldKind

structure CustomizableField where
  id : String
  kind : FieldKind
  label : String
  labelHi : Option String
  default : Option String
  required : Bool
  maxLength : Option Nat
deriving DecidableEq

namespace CustomizableField

def ofPlaceholder (id : String) (p : Placeholder) : CustomizableField where
  id
  kind := .ofPlaceholder p.kind
  label := p.label.getD id
  labelHi := p.labelHi
  default := p.default
  required := p.required
  maxLength := p.maxLength

def decoder : Decoder CustomizableField := fun room j => do
  let r ← Decoder.record
    ["field_id", "field_type", "label", "label_hindi", "default_value", "required",
     "max_length"] room j
  return {
    id := ← r.required "field_id" Decoder.string
    kind := ← r.required "field_type" (Decoder.oneOf FieldKind.names)
    label := ← r.required "label" Decoder.string
    labelHi := ← r.optional "label_hindi" Decoder.string
    default := ← r.optional "default_value" Decoder.string
    required := ← r.required "required" Decoder.bool
    maxLength := ← r.optional "max_length" (Decoder.natBits 64) }

def toJson (f : CustomizableField) : Json :=
  .object <|
    [("field_id", .string f.id),
     ("field_type", .string (Decoder.nameOf FieldKind.names f.kind)),
     ("label", .string f.label)]
    ++ Json.optionalField "label_hindi" .string f.labelHi
    ++ Json.optionalField "default_value" .string f.default
    ++ [("required", .bool f.required)]
    ++ Json.optionalField "max_length" .ofNat f.maxLength

end CustomizableField

/-- The palette of one theme, complete for a swatch. -/
structure ColorScheme where
  theme : String
  name : String
  primary : String
  secondary : String
  background : String
  text : String
  accent : Option String
deriving DecidableEq

namespace ColorScheme

def ofTheme (id : String) (t : Theme) : ColorScheme :=
  let color (name fallback : String) : String := (t.colors.find? name).getD fallback
  { theme := id
    name := t.name.getD id
    primary := color "primary" "#000000"
    secondary := color "secondary" "#666666"
    background := color "background" "#FFFFFF"
    text := color "text" "#000000"
    accent := t.colors.find? "accent" }

def decoder : Decoder ColorScheme := fun room j => do
  let r ← Decoder.record
    ["theme_id", "name", "primary", "secondary", "background", "text", "accent"] room j
  return {
    theme := ← r.required "theme_id" Decoder.string
    name := ← r.required "name" Decoder.string
    primary := ← r.required "primary" Decoder.string
    secondary := ← r.required "secondary" Decoder.string
    background := ← r.required "background" Decoder.string
    text := ← r.required "text" Decoder.string
    accent := ← r.optional "accent" Decoder.string }

def toJson (s : ColorScheme) : Json :=
  .object <|
    [("theme_id", .string s.theme), ("name", .string s.name), ("primary", .string s.primary),
     ("secondary", .string s.secondary), ("background", .string s.background),
     ("text", .string s.text)]
    ++ Json.optionalField "accent" .string s.accent

end ColorScheme

structure Summary where
  id : String
  name : String
  nameHi : Option String
  category : String
  aspectRatio : Option String
  width : Nat
  height : Nat
  fps : Nat
  defaultDuration : Float
  durationPresets : List Float
  layerCount : Nat
  tags : List String
  fields : List CustomizableField
  schemes : List ColorScheme
  /-- The font families of all themes, each once, in ascending order. -/
  fonts : List String
deriving DecidableEq

namespace Summary

def ofDefinition (d : Definition) : Summary where
  id := d.id
  name := d.name.en
  nameHi := d.name.hi?
  category := d.category
  aspectRatio := d.aspectRatio.map AspectRatio.label
  width := d.width
  height := d.height
  fps := d.fps
  defaultDuration := d.defaultDuration
  durationPresets := d.durationPresets
  layerCount := d.layers.length
  tags := d.tags
  fields := d.placeholders.entries.map fun e => .ofPlaceholder e.1 e.2
  schemes := d.themes.entries.map fun e => .ofTheme e.1 e.2
  fonts := (KeyMap.ofList (d.themes.values.flatMap (·.fonts.values) |>.map (·, ()))).keys

def decoder : Decoder Summary := fun room j => do
  let r ← Decoder.record
    ["id", "name", "name_hindi", "category", "aspect_ratio", "width", "height", "fps",
     "duration_seconds", "duration_presets", "layer_count", "tags", "customizable_fields",
     "color_schemes", "font_options"] room j
  return {
    id := ← r.required "id" Decoder.string
    name := ← r.required "name" Decoder.string
    nameHi := ← r.optional "name_hindi" Decoder.string
    category := ← r.required "category" Decoder.string
    aspectRatio := ← r.optional "aspect_ratio" Decoder.string
    width := ← r.required "width" (Decoder.natBits 32)
    height := ← r.required "height" (Decoder.natBits 32)
    fps := ← r.required "fps" (Decoder.natBits 32)
    defaultDuration := ← r.required "duration_seconds" Decoder.float
    durationPresets := ← r.required "duration_presets" (Decoder.list Decoder.float)
    layerCount := ← r.required "layer_count" (Decoder.natBits 64)
    tags := ← r.required "tags" (Decoder.list Decoder.string)
    fields := ← r.required "customizable_fields" (Decoder.list CustomizableField.decoder)
    schemes := ← r.required "color_schemes" (Decoder.list ColorScheme.decoder)
    fonts := ← r.required "font_options" (Decoder.list Decoder.string) }

def toJson (s : Summary) : Json :=
  .object <|
    [("id", .string s.id), ("name", .string s.name)]
    ++ Json.optionalField "name_hindi" .string s.nameHi
    ++ [("category", .string s.category)]
    ++ Json.optionalField "aspect_ratio" .string s.aspectRatio
    ++ [("width", .ofNat s.width), ("height", .ofNat s.height), ("fps", .ofNat s.fps),
        ("duration_seconds", .ofFloat s.defaultDuration),
        ("duration_presets", .ofList .ofFloat s.durationPresets),
        ("layer_count", .ofNat s.layerCount), ("tags", .ofList .string s.tags),
        ("customizable_fields", .ofList CustomizableField.toJson s.fields),
        ("color_schemes", .ofList ColorScheme.toJson s.schemes),
        ("font_options", .ofList .string s.fonts)]

end Summary

end MotionTemplate
