import MotionTemplate.Template.Definition

/-! Markers that a definition cannot resolve by itself. They are warnings: a composition takes
fallbacks for them. -/
namespace MotionTemplate

/-- Why a token has no value. -/
inductive MissingReference where
  | noThemes
  | noColor (theme name : String)
  | noFont (theme name : String)
  | undeclared (placeholder : String)
deriving DecidableEq

def MissingReference.message : MissingReference → String
  | noThemes => "no themes are declared"
  | noColor theme name => "theme '" ++ theme ++ "' has no color '" ++ name ++ "'"
  | noFont theme name => "theme '" ++ theme ++ "' has no font '" ++ name ++ "'"
  | undeclared placeholder => "placeholder '" ++ placeholder ++ "' is not declared"

/-- A token of a layer that cannot be resolved under every theme. -/
structure ReferenceIssue where
  layer : String
  token : Token
  cause : MissingReference
deriving DecidableEq

def ReferenceIssue.message (i : ReferenceIssue) : String :=
  "layer '" ++ i.layer ++ "': " ++ i.token.marker ++ ": " ++ i.cause.message

namespace Definition

/-- The first theme, in the order of the ids, without a property of the given name. -/
private def themeWithout (d : Definition) (property : Theme → KeyMap String) (name : String) :
    Option String :=
  (d.themes.entries.find? fun e => !(property e.2).contains name).map (·.1)

/-- What keeps a token from being resolved under every theme. -/
def missingReference? (d : Definition) : Token → Option MissingReference
  | .currentDuration => none
  | .themeColor name =>
    if d.themes.isEmpty then some .noThemes
    else (d.themeWithout Theme.colors name).map (.noColor · name)
  | .themeFont name =>
    if d.themes.isEmpty then some .noThemes
    else (d.themeWithout Theme.fonts name).map (.noFont · name)
  | .placeholder id => if d.placeholders.contains id then none else some (.undeclared id)

private theorem themeWithout_eq_none_iff {d : Definition} {property : Theme → KeyMap String}
    {name : String} :
    d.themeWithout property name = none ↔
      ∀ e ∈ d.themes.entries, (property e.2).contains name := by
  simp [themeWithout]

/-- A color is found under every theme when there are themes and all of them define it. -/
theorem missingReference?_themeColor_eq_none_iff {d : Definition} {name : String} :
    d.missingReference? (.themeColor name) = none ↔
      d.themes.isEmpty = false ∧ ∀ e ∈ d.themes.entries, e.2.colors.contains name := by
  cases h : d.themes.isEmpty <;> simp [missingReference?, themeWithout_eq_none_iff, h]

theorem missingReference?_themeFont_eq_none_iff {d : Definition} {name : String} :
    d.missingReference? (.themeFont name) = none ↔
      d.themes.isEmpty = false ∧ ∀ e ∈ d.themes.entries, e.2.fonts.contains name := by
  cases h : d.themes.isEmpty <;> simp [missingReference?, themeWithout_eq_none_iff, h]

theorem missingReference?_placeholder_eq_none_iff {d : Definition} {id : String} :
    d.missingReference? (.placeholder id) = none ↔ d.placeholders.contains id := by
  simp [missingReference?]

/-- Every token, wherever it stands, that cannot be resolved. -/
def referenceIssues (d : Definition) : List ReferenceIssue :=
  d.layers.flatMap fun l => l.tokens.filterMap fun t =>
    (d.missingReference? t).map (⟨l.id, t, ·⟩)

end Definition

end MotionTemplate
