import MotionTemplate.Template.Definition
import MotionTemplate.Text.Blank

/-! What a caller chooses of a template: a theme, a duration and values for placeholders. The wire
form is one flat object. -/
namespace MotionTemplate

/-- Which durations are accepted besides the presets of a template. -/
structure DurationBounds where
  /-- The longest accepted duration in seconds. -/
  maxSecs : Float
deriving DecidableEq

namespace DurationBounds

def standard : DurationBounds := ⟨180.0⟩

/-- A positive, finite duration that is not too long. -/
def contains (b : DurationBounds) (secs : Float) : Bool :=
  secs.isFinite && 0.0 < secs && secs ≤ b.maxSecs

end DurationBounds

structure Customization where
  theme : Option String
  duration : Option Float
  /-- Texts and addresses of media by the ids of their placeholders. -/
  values : KeyMap String
deriving DecidableEq

namespace Customization

def empty : Customization := ⟨none, none, ∅⟩

def withTheme (c : Customization) (id : String) : Customization := { c with theme := some id }

def withDuration (c : Customization) (secs : Float) : Customization :=
  { c with duration := some secs }

/-- Supplies a value for a placeholder, replacing an earlier one. -/
def set (c : Customization) (id value : String) : Customization :=
  { c with values := c.values.insert id value }

def clear (c : Customization) (id : String) : Customization :=
  { c with values := c.values.erase id }

def value? (c : Customization) (id : String) : Option String := c.values.find? id

/-- The names of the wire form that are no placeholders. -/
def themeField : String := "theme_id"

def durationField : String := "duration_seconds"

/-- The two named fields stand at most once; everything else is a placeholder's text. -/
def decoder : Decoder Customization
  | room, .object fields => do
    let room ← Decoder.enter? room
    let named := fields.filter fun f => f.1 = themeField ∨ f.1 = durationField
    let others := fields.filter fun f => f.1 ≠ themeField ∧ f.1 ≠ durationField
    guard (named.map (·.1)).Nodup
    let r : Decoder.Record := ⟨named, false, room⟩
    return {
      theme := ← r.optional themeField Decoder.string
      duration := ← r.optional durationField Decoder.float
      values := .ofList (← others.mapM fun f => f.2.str?.map (f.1, ·)) }
  | _, _ => none

/-- The fields of the wire form in the order in which they are written. -/
def toFields (c : Customization) : List (String × Json) :=
  Json.optionalField themeField .string c.theme
    ++ Json.optionalField durationField .ofFloat c.duration
    ++ c.values.entries.map fun e => (e.1, .string e.2)

def toJson (c : Customization) : Json := .object c.toFields

/-- The theme that was asked for; an empty id asks for none. -/
def requestedTheme? (c : Customization) : Option String := c.theme.filter (· ≠ "")

/-- The theme to apply: the requested one if it is declared, and the definition's first one if
none was requested. An undeclared id selects no theme. -/
def effectiveTheme? (c : Customization) (d : Definition) : Option String :=
  match c.requestedTheme? with
  | some id => if d.themes.contains id then some id else none
  | none => d.defaultThemeId?

/-- A duration that may be asked for: a preset, or one within the bounds. -/
def acceptsDuration (d : Definition) (bounds : DurationBounds) (secs : Float) : Bool :=
  d.isPreset secs || bounds.contains secs

/-- The duration to apply: the requested one if it is accepted, otherwise the default one. -/
def effectiveDuration (c : Customization) (d : Definition) (bounds : DurationBounds) : Float :=
  match c.duration with
  | some secs => if acceptsDuration d bounds secs then secs else d.defaultDuration
  | none => d.defaultDuration

end Customization

/-- What makes a customization unusable or loses a part of it. -/
inductive CustomizationIssue where
  | unknownTheme (id : String)
  | durationOutOfRange (secs maxSecs : Float)
  | missingRequired (id : String)
  | tooLong (id : String) (length max : Nat)
  | unknownPlaceholder (id : String)
deriving DecidableEq

namespace CustomizationIssue

def message : CustomizationIssue → String
  | unknownTheme id => "theme '" ++ id ++ "' is not defined by the template"
  | durationOutOfRange secs maxSecs =>
    "duration " ++ Number.Layout.message.render secs ++ "s is not a preset and exceeds the "
      ++ Number.Layout.message.render maxSecs ++ "s limit or is not positive"
  | missingRequired id => "required placeholder '" ++ id ++ "' has no value"
  | tooLong id length max =>
    "placeholder '" ++ id ++ "' is " ++ toString length ++ " characters long (max "
      ++ toString max ++ ")"
  | unknownPlaceholder id => "placeholder '" ++ id ++ "' is not declared by the template"

end CustomizationIssue

namespace Customization

/-- What is wrong with the value of one placeholder. A blank value counts as none, and only a
text that is not empty can stand in for a required one. -/
def placeholderIssue? (c : Customization) (id : String) (p : Placeholder) :
    Option CustomizationIssue :=
  match (c.value? id).filter (!Text.isBlankText ·) with
  | none =>
    if p.required && !(p.kind.usesDefault && p.default.any (· ≠ "")) then
      some (.missingRequired id)
    else none
  | some text =>
    if p.kind = .text then
      p.maxLength.bind fun max =>
        if max < text.length then some (.tooLong id text.length max) else none
    else none

def issues (c : Customization) (d : Definition) (bounds : DurationBounds) :
    List CustomizationIssue :=
  (c.requestedTheme?.filter (!d.themes.contains ·)).toList.map .unknownTheme
    ++ (c.duration.filter (!acceptsDuration d bounds ·)).toList.map
        (.durationOutOfRange · bounds.maxSecs)
    ++ d.placeholders.entries.filterMap (fun e => c.placeholderIssue? e.1 e.2)
    ++ (c.values.keys.filter (!d.placeholders.contains ·)).map .unknownPlaceholder

end Customization

end MotionTemplate
