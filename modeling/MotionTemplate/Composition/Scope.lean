import MotionTemplate.Customization
import MotionTemplate.Template.Value

/-! Tokens replaced by literals under one theme, one customization and one duration. A token that
has no value takes a fallback and is remembered as missed. -/
namespace MotionTemplate

/-- A result, with the tokens that took a fallback on the way to it in the order in which they
were met. -/
structure Tracked (α : Type) where
  value : α
  missed : List Token

/-- All that a token may be resolved against. -/
structure Scope where
  theme : Option Theme
  placeholders : KeyMap Placeholder
  customization : Customization
  duration : Float

namespace Scope

/-- The literals of theme tokens that the theme does not define. -/
def fallbackColor : String := "#000000"

def fallbackFont : String := "Inter"

/-- The scope of a definition under the theme that a customization has in effect. -/
def ofDefinition (d : Definition) (c : Customization) (duration : Float) : Scope where
  theme := (c.effectiveTheme? d).bind d.themes.find?
  placeholders := d.placeholders
  customization := c
  duration

/-- The text of a placeholder without a supplied value. -/
def placeholderText (p : Placeholder) : String :=
  if p.kind.usesDefault then p.default.getD "" else ""

/-- The literal of a token, and whether it is the token's own and no fallback. -/
def resolveToken (s : Scope) : Token → Json × Bool
  | .currentDuration => (.ofFloat s.duration, true)
  | .themeColor name =>
    match s.theme.bind (·.colors.find? name) with
    | some color => (.string color, true)
    | none => (.string fallbackColor, false)
  | .themeFont name =>
    match s.theme.bind (·.fonts.find? name) with
    | some font => (.string font, true)
    | none => (.string fallbackFont, false)
  | .placeholder id =>
    match (s.customization.value? id).filter (· ≠ "") with
    | some value => (.string value, true)
    | none =>
      match s.placeholders.find? id with
      | some p => (.string (placeholderText p), true)
      | none => (.string "", false)

mutual

/-- Resolves every token in a value. -/
def track (s : Scope) : Value → Tracked Json
  | .token t =>
    let (literal, resolved) := s.resolveToken t
    ⟨literal, if resolved then [] else [t]⟩
  | .literal j => ⟨j, []⟩
  | .array items =>
    let r := trackItems s items
    ⟨.array r.value, r.missed⟩
  | .object fields =>
    let r := trackFields s fields
    ⟨.object r.value, r.missed⟩

def trackItems (s : Scope) : List Value → Tracked (List Json)
  | [] => ⟨[], []⟩
  | v :: rest =>
    let r := track s v
    let rs := trackItems s rest
    ⟨r.value :: rs.value, r.missed ++ rs.missed⟩

def trackFields (s : Scope) : List (String × Value) → Tracked (List (String × Json))
  | [] => ⟨[], []⟩
  | (name, v) :: rest =>
    let r := track s v
    let rs := trackFields s rest
    ⟨(name, r.value) :: rs.value, r.missed ++ rs.missed⟩

end

def resolve (s : Scope) (v : Value) : Json := (s.track v).value

/-- Resolves the values of a map. -/
def trackMap (s : Scope) (m : KeyMap Value) : Tracked (KeyMap Json) where
  value := m.map s.resolve
  missed := m.values.flatMap fun v => (s.track v).missed

/-- Resolves a value that may be absent. -/
def trackOption (s : Scope) : Option Value → Tracked (Option Json)
  | none => ⟨none, []⟩
  | some v =>
    let r := s.track v
    ⟨some r.value, r.missed⟩

end Scope

end MotionTemplate
