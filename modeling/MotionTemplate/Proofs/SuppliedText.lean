import MotionTemplate.Composition.Scope
import MotionTemplate.Proofs.Blank
import MotionTemplate.Proofs.KeyMap
import MotionTemplate.Template.Validation

/-! What a check of a customization promises of its texts. A supplied text that passes is the one
that is shown, not blank and not too long. The default that stands in for a missing one is shown as
it is declared. -/
namespace MotionTemplate

namespace Customization

variable {d : Definition} {c : Customization} {bounds : DurationBounds} {id : String}
  {p : Placeholder}

/-- Without issues no declared placeholder has one. -/
private theorem placeholderIssue?_of_issues (h : c.issues d bounds = [])
    (hp : d.placeholders.find? id = some p) : c.placeholderIssue? id p = none := by
  simp only [issues, List.append_eq_nil_iff, List.filterMap_eq_nil_iff] at h
  exact h.1.2 (id, p) (KeyMap.mem_of_find? hp)

/-- A required placeholder without a value has a default that is not empty. -/
private theorem default_of_required (h : c.placeholderIssue? id p = none)
    (hv : (c.value? id).filter (!Text.isBlankText ·) = none) (hr : p.required) :
    p.kind = .text ∧ ∃ text, p.default = some text ∧ text ≠ "" := by
  rw [placeholderIssue?, hv] at h
  cases hd : p.default with
  | none => simp [hr, hd] at h
  | some text =>
    simpa [hr, hd, PlaceholderKind.usesDefault] using h

/-- A text that is not blank is within the limit. -/
private theorem length_le_of_text {v : String} {max : Nat} (h : c.placeholderIssue? id p = none)
    (hv : (c.value? id).filter (!Text.isBlankText ·) = some v) (hk : p.kind = .text)
    (hmax : p.maxLength = some max) : v.length ≤ max := by
  rw [placeholderIssue?, hv] at h
  simpa [hk, hmax] using h

end Customization

namespace Scope

variable {d : Definition} {c : Customization} {bounds : DurationBounds} {id : String}
  {p : Placeholder}

private theorem resolveToken_supplied {v : String} (secs : Float) (hv : c.value? id = some v)
    (hne : v ≠ "") :
    (ofDefinition d c secs).resolveToken (.placeholder id) = (.string v, true) := by
  have hf : (c.value? id).filter (· ≠ "") = some v := by
    simp [hv, Option.filter, hne]
  simp only [resolveToken, ofDefinition, hf]

private theorem resolveToken_default (secs : Float) (hp : d.placeholders.find? id = some p)
    (hv : (c.value? id).filter (· ≠ "") = none) :
    (ofDefinition d c secs).resolveToken (.placeholder id) =
      (.string (placeholderText p), true) := by
  simp only [resolveToken, ofDefinition, hv, hp]

/-- When a check has no issues, a supplied value that is more than white space is the text of its
placeholder and within the limit. Without a value the text is the declared default, which a
required placeholder has, whatever it is made of. -/
theorem text_without_issues (secs : Float) (hissues : c.issues d bounds = [])
    (hp : d.placeholders.find? id = some p)
    (hvalue : ∀ v, c.value? id = some v → Text.trim v = "" → v = "") :
    ∃ text, (ofDefinition d c secs).resolveToken (.placeholder id) = (.string text, true) ∧
      ((c.value? id = some text ∧ Text.trim text ≠ "" ∧
          (p.kind = .text → ∀ max, p.maxLength = some max → text.length ≤ max)) ∨
        ((c.value? id = none ∨ c.value? id = some "") ∧ text = placeholderText p ∧
          (p.required → p.kind = .text ∧ p.default = some text ∧ text ≠ ""))) := by
  have hissue := Customization.placeholderIssue?_of_issues hissues hp
  by_cases hnone : c.value? id = none ∨ c.value? id = some ""
  · have hv (test : String → Bool) (ht : test "" = false) :
        (c.value? id).filter test = none := by
      rcases hnone with h | h <;> simp [h, ht]
    refine ⟨_, resolveToken_default secs hp (hv _ (by decide)), .inr ⟨hnone, rfl, fun hr => ?_⟩⟩
    obtain ⟨hk, text, hd, hne⟩ := Customization.default_of_required hissue (hv _ (by decide)) hr
    have ht : placeholderText p = text := by
      simp [placeholderText, hk, hd, PlaceholderKind.usesDefault]
    rw [ht]
    exact ⟨hk, hd, hne⟩
  · obtain ⟨hnone, hempty⟩ := not_or.1 hnone
    obtain ⟨v, hv⟩ := Option.ne_none_iff_exists'.1 hnone
    have hne : v ≠ "" := by
      rintro rfl
      exact hempty hv
    have htrim : Text.trim v ≠ "" := fun ht => hne (hvalue v hv ht)
    have hsupplied : (c.value? id).filter (!Text.isBlankText ·) = some v := by
      simpa [hv, Option.filter, Text.trim_eq_empty_iff] using htrim
    refine ⟨v, resolveToken_supplied secs hv hne, .inl ⟨hv, htrim, fun hk max hmax => ?_⟩⟩
    exact Customization.length_le_of_text hissue hsupplied hk hmax

/-- A headline of at most five characters, with a default of twelve. -/
private def headline : Placeholder :=
  { Placeholder.ofText "Happy Diwali" with required := true, maxLength := some 5 }

private def headlined : Definition :=
  { Definition.new "card" "Card" 1080 1920 30 with
    placeholders := KeyMap.empty.insert "headline" headline }

/-- A supplied headline passes within its limit. -/
theorem headline_without_issues :
    let c := Customization.empty.set "headline" "Diya"
    ∃ text, (ofDefinition headlined c 15.0).resolveToken (.placeholder "headline") =
        (.string text, true) ∧ Text.trim text ≠ "" ∧ text.length ≤ 5 := by
  intro c
  have hissues : c.issues headlined .standard = [] := by decide +kernel
  have hp : headlined.placeholders.find? "headline" = some headline := by decide +kernel
  have hv : c.value? "headline" = some "Diya" := by decide +kernel
  obtain ⟨text, ht, hcase⟩ := text_without_issues 15.0 hissues hp (by
    intro v hv' ht
    obtain rfl := Option.some.inj (hv.symm.trans hv')
    exact absurd ht (by decide))
  rw [hv] at hcase
  obtain ⟨hs, htrim, hmax⟩ := hcase.resolve_right (by simp)
  exact ⟨text, ht, htrim, hmax rfl 5 rfl⟩

/-- The default is checked against nothing, so a check without issues limits only what is
supplied. -/
theorem default_may_exceed_limit :
    ¬ ∀ (d : Definition) (c : Customization) (bounds : DurationBounds) (secs : Float)
        (id : String) (p : Placeholder),
      d.validate = .ok () → c.issues d bounds = [] → d.placeholders.find? id = some p →
      ∃ text resolved, (ofDefinition d c secs).resolveToken (.placeholder id) =
          (.string text, resolved) ∧
        (p.required → Text.trim text ≠ "") ∧
        (p.kind = .text → ∀ max, p.maxLength = some max → text.length ≤ max) := by
  intro h
  obtain ⟨text, resolved, ht, -, hmax⟩ := h headlined .empty .standard 15.0 "headline" headline rfl
    (by decide +kernel) (by decide +kernel)
  have hdefault : (ofDefinition headlined .empty 15.0).resolveToken (.placeholder "headline") =
      (.string "Happy Diwali", true) := by decide +kernel
  obtain ⟨htext, -⟩ := Prod.mk.inj (ht.symm.trans hdefault)
  obtain rfl := Json.string.inj htext
  exact absurd (hmax rfl 5 rfl) (by decide)

end Scope

end MotionTemplate
