import MotionTemplate.Proofs.KeyMap
import MotionTemplate.Proofs.MissedTokens
import MotionTemplate.Template.References
import MotionTemplate.Template.Starter

/-! Reference checking is exact. A definition has no issues if and only if resolving it never takes
a fallback, whichever of its themes and whatever texts and duration are chosen. -/
namespace MotionTemplate

/-- A composition takes no fallback when every token of every layer has a literal. -/
private theorem missed_eq_nil_iff {d : Definition} {c : Customization} {bounds : DurationBounds} :
    (Resolution.ofDefinition d c bounds).missed = [] ↔
      ∀ l ∈ d.layers, ∀ t ∈ l.tokens,
        (Scope.ofDefinition d c (c.effectiveDuration d bounds)).resolves t := by
  simp only [List.eq_nil_iff_forall_not_mem, Resolution.mem_missed_iff]
  grind

namespace Customization

/-- No theme is asked for, or one that the definition declares. An empty id asks for none. -/
def SelectsDeclared (c : Customization) (d : Definition) : Prop :=
  ∀ id ∈ c.theme, id = "" ∨ d.themes.contains id

private theorem theme_requested {c : Customization} {d : Definition} {e : String × Theme}
    (hc : c.requestedTheme? = some e.1) (he : e ∈ d.themes.entries) (secs : Float) :
    (Scope.ofDefinition d c secs).theme = some e.2 := by
  have hfind : d.themes.find? e.1 = some e.2 := KeyMap.find?_of_mem he
  have hin : d.themes.contains e.1 := KeyMap.contains_iff.2 ⟨e.2, he⟩
  simp only [Scope.ofDefinition, effectiveTheme?, hc, if_pos hin, Option.bind_some, hfind]

private theorem theme_default {c : Customization} {d : Definition} {e : String × Theme}
    (hc : c.requestedTheme? = none) (he : d.themes.entries.head? = some e) (secs : Float) :
    (Scope.ofDefinition d c secs).theme = some e.2 := by
  have hid : d.defaultThemeId? = some e.1 := by
    rw [Definition.defaultThemeId?, KeyMap.keys, List.head?_map, he, Option.map_some]
  have hfind : d.themes.find? e.1 = some e.2 := KeyMap.find?_of_mem (List.mem_of_mem_head? he)
  simp only [Scope.ofDefinition, effectiveTheme?, hc, hid, Option.bind_some, hfind]

/-- Of a definition with themes, one of them is in effect. -/
private theorem theme_of_selectsDeclared {c : Customization} {d : Definition}
    (h : c.SelectsDeclared d) (hd : d.themes.isEmpty = false) (secs : Float) :
    ∃ e ∈ d.themes.entries, (Scope.ofDefinition d c secs).theme = some e.2 := by
  cases hc : c.requestedTheme? with
  | none =>
    cases he : d.themes.entries with
    | nil => simp [KeyMap.isEmpty, he] at hd
    | cons e rest => exact ⟨e, List.mem_cons_self, theme_default hc (by rw [he]; rfl) secs⟩
  | some id =>
    obtain ⟨htheme, hne⟩ := Option.filter_eq_some_iff.1 hc
    have hin := (h id htheme).resolve_left (of_decide_eq_true hne)
    obtain ⟨theme, he⟩ := KeyMap.contains_iff.1 hin
    exact ⟨(id, theme), he, theme_requested hc he secs⟩

/-- Every theme of a definition can be chosen. One with an empty id is the default, since no id
stands before it. -/
private theorem exists_selecting {d : Definition} {e : String × Theme}
    (he : e ∈ d.themes.entries) :
    ∃ c : Customization, c.SelectsDeclared d ∧
      ∀ secs, (Scope.ofDefinition d c secs).theme = some e.2 := by
  obtain ⟨id, theme⟩ := e
  refine ⟨Customization.empty.withTheme id, ?_, fun secs => ?_⟩
  · rintro _ ⟨rfl⟩
    exact .inr (KeyMap.contains_iff.2 ⟨theme, he⟩)
  · by_cases hid : id = ""
    · subst hid
      exact theme_default rfl (KeyMap.head?_of_mem_empty he) secs
    · refine theme_requested ?_ he secs
      rw [requestedTheme?, withTheme, Option.filter_some, if_pos (decide_eq_true hid)]

/-- What holds of the theme in effect, under every customization, holds of all themes. -/
private theorem forall_theme_iff {d : Definition} {p : Theme → Bool} :
    (∀ c : Customization, c.SelectsDeclared d → ∀ secs,
        (Scope.ofDefinition d c secs).theme.any p) ↔
      d.themes.isEmpty = false ∧ ∀ e ∈ d.themes.entries, p e.2 := by
  constructor
  · intro h
    constructor
    · rw [← Bool.not_eq_true, KeyMap.isEmpty, List.isEmpty_iff]
      intro hnil
      have hany := h Customization.empty nofun 0.0
      simp [Scope.ofDefinition, effectiveTheme?, requestedTheme?, empty, Definition.defaultThemeId?,
        KeyMap.keys, hnil] at hany
    · intro e he
      obtain ⟨c, hc, htheme⟩ := exists_selecting he
      have hany := h c hc 0.0
      rwa [htheme, Option.any_some] at hany
  · rintro ⟨hd, hall⟩ c hc secs
    obtain ⟨e, he, htheme⟩ := theme_of_selectsDeclared hc hd secs
    rw [htheme, Option.any_some]
    exact hall e he

end Customization

namespace Scope

private theorem resolves_themeColor {s : Scope} {name : String} :
    s.resolves (.themeColor name) = s.theme.any (·.colors.contains name) := by
  cases h : s.theme with
  | none => simp [resolves, resolveToken, h]
  | some theme =>
    cases hc : theme.colors.find? name <;> simp [resolves, resolveToken, h, hc, KeyMap.contains]

private theorem resolves_themeFont {s : Scope} {name : String} :
    s.resolves (.themeFont name) = s.theme.any (·.fonts.contains name) := by
  cases h : s.theme with
  | none => simp [resolves, resolveToken, h]
  | some theme =>
    cases hc : theme.fonts.find? name <;> simp [resolves, resolveToken, h, hc, KeyMap.contains]

/-- A declared placeholder has a text, supplied or not. -/
private theorem resolves_placeholder {s : Scope} {id : String} :
    s.resolves (.placeholder id) =
      ((s.customization.value? id).any (· ≠ "") || s.placeholders.contains id) := by
  rw [resolves, resolveToken, ← Option.isSome_filter, KeyMap.contains]
  cases (s.customization.value? id).filter (· ≠ "") with
  | some value => rfl
  | none => cases s.placeholders.find? id <;> rfl

/-- The duration changes literals, and never whether there is one. -/
private theorem resolves_ofDefinition (d : Definition) (c : Customization) (t : Token)
    (secs secs' : Float) :
    (ofDefinition d c secs).resolves t = (ofDefinition d c secs').resolves t := by
  cases t <;> rfl

end Scope

namespace Definition

/-- A token is no issue exactly when it has a literal under every choice. -/
theorem missingReference?_eq_none_iff {d : Definition} {t : Token} :
    d.missingReference? t = none ↔
      ∀ c : Customization, c.SelectsDeclared d →
        ∀ secs, (Scope.ofDefinition d c secs).resolves t := by
  cases t with
  | currentDuration => exact iff_of_true rfl fun _ _ _ => rfl
  | themeColor name =>
    simp only [Scope.resolves_themeColor]
    exact missingReference?_themeColor_eq_none_iff.trans
      (Customization.forall_theme_iff (p := (·.colors.contains name))).symm
  | themeFont name =>
    simp only [Scope.resolves_themeFont]
    exact missingReference?_themeFont_eq_none_iff.trans
      (Customization.forall_theme_iff (p := (·.fonts.contains name))).symm
  | placeholder id =>
    rw [missingReference?_placeholder_eq_none_iff]
    simp only [Scope.resolves_placeholder, Bool.or_eq_true]
    constructor
    · exact fun h _ _ _ => .inr h
    · intro h
      exact (h Customization.empty nofun 0.0).resolve_left Bool.false_ne_true

/-- A definition without issues takes no fallback, under any of its themes and for any texts and
any duration, and only such a definition has none. -/
theorem referenceIssues_eq_nil_iff (d : Definition) :
    (d.referenceIssues = [] ↔ ∀ c : Customization, c.SelectsDeclared d → ∀ secs : Float,
        ∀ l ∈ d.layers, ∀ t ∈ l.tokens, ((Scope.ofDefinition d c secs).resolveToken t).2) ∧
      (d.referenceIssues = [] ↔ ∀ c : Customization, c.SelectsDeclared d →
        ∀ bounds : DurationBounds, (Resolution.ofDefinition d c bounds).missed = []) := by
  have hissues : d.referenceIssues = [] ↔
      ∀ l ∈ d.layers, ∀ t ∈ l.tokens, d.missingReference? t = none := by
    simp [referenceIssues, List.flatMap_eq_nil_iff, List.filterMap_eq_nil_iff]
  constructor
  · rw [hissues]
    simp only [missingReference?_eq_none_iff]
    constructor
    · exact fun h c hc secs l hl t ht => h l hl t ht c hc secs
    · exact fun h l hl t ht c hc secs => h c hc secs l hl t ht
  · rw [hissues]
    simp only [missingReference?_eq_none_iff, missed_eq_nil_iff]
    constructor
    · exact fun h c hc bounds l hl t ht => h l hl t ht c hc _
    · intro h l hl t ht c hc secs
      rw [Scope.resolves_ofDefinition d c t secs (c.effectiveDuration d .standard)]
      exact h c hc .standard l hl t ht

/-- What a new template starts from refers only to what it declares. -/
example : (starter "card" "Card").referenceIssues = [] := by decide +kernel

end Definition

end MotionTemplate
