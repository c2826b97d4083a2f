import MotionTemplate.Proofs.Markers

/-! Which trees of values survive being written and parsed. Data always does. A tree does if its
tokens have names, its literals are scalars, and none of its texts is a marker. -/
namespace MotionTemplate

namespace Token

/-- The grammar of markers. -/
def IsMarker (text : String) : Prop :=
  text = durationMarker ∨ ∃ lead ∈ [colorLead, fontLead, placeholderLead], ∃ name ≠ "",
    text = lead ++ name

/-- A token that has its name, if it is of a kind that needs one. -/
def Named (t : Token) : Prop := t = .currentDuration ∨ ∃ name ≠ "", t.name? = some name

private theorem named_of_parse {text : String} {t : Token} (h : parse text = some t) : t.Named := by
  rw [parse] at h
  split at h
  · exact .inl (Option.some.inj h).symm
  · right
    split at h
    · next hn =>
      obtain rfl := Option.some.inj h
      exact ⟨_, (named?_eq_some_iff.1 hn).2, rfl⟩
    · split at h
      · next hn =>
        obtain rfl := Option.some.inj h
        exact ⟨_, (named?_eq_some_iff.1 hn).2, rfl⟩
      · obtain ⟨name, hn, rfl⟩ := Option.map_eq_some_iff.1 h
        exact ⟨_, (named?_eq_some_iff.1 hn).2, rfl⟩

private theorem colorLead_append_ne (name : String) : colorLead ++ name ≠ durationMarker := by
  rw [← String.toList_inj.ne]
  simp [colorLead, durationMarker]

private theorem fontLead_append_ne (name : String) : fontLead ++ name ≠ durationMarker := by
  rw [← String.toList_inj.ne]
  simp [fontLead, durationMarker]

private theorem placeholderLead_append_ne (name : String) :
    placeholderLead ++ name ≠ durationMarker := by
  rw [← String.toList_inj.ne]
  simp [placeholderLead, durationMarker]

/-- The leads differ before one of them ends, so that no text starts with two of them. -/
private theorem named?_of_other_lead (name : String) :
    named? colorLead (fontLead ++ name) = none ∧ named? colorLead (placeholderLead ++ name) = none ∧
      named? fontLead (placeholderLead ++ name) = none := by
  simp [named?, afterLead?, colorLead, fontLead, placeholderLead]

/-- A marker is parsed as the token that it is written for. -/
private theorem parse_marker {t : Token} (h : t.Named) : parse t.marker = some t := by
  obtain rfl | ⟨name, hname, ht⟩ := h
  · rfl
  · have hread (lead : String) : named? lead (lead ++ name) = some name :=
      named?_eq_some_iff.2 ⟨rfl, hname⟩
    obtain ⟨hcolorFont, hcolorPlace, hfontPlace⟩ := named?_of_other_lead name
    cases t with
    | currentDuration => exact nomatch ht
    | themeColor _ =>
      obtain rfl := Option.some.inj ht
      rw [parse, marker, if_neg (colorLead_append_ne _), hread]
    | themeFont _ =>
      obtain rfl := Option.some.inj ht
      rw [parse, marker, if_neg (fontLead_append_ne _), hcolorFont, hread]
    | placeholder _ =>
      obtain rfl := Option.some.inj ht
      rw [parse, marker, if_neg (placeholderLead_append_ne _), hcolorPlace, hfontPlace, hread]
      rfl

/-- Parsing and writing of markers are inverse on the tokens that have their names. -/
theorem parse_eq_some_iff {text : String} {t : Token} :
    parse text = some t ↔ t.Named ∧ text = t.marker := by
  constructor
  · intro h
    exact ⟨named_of_parse h, (marker_of_parse h).symm⟩
  · rintro ⟨h, rfl⟩
    exact parse_marker h

private theorem isMarker_iff {text : String} :
    IsMarker text ↔ ∃ t : Token, t.Named ∧ text = t.marker := by
  constructor
  · rintro (rfl | ⟨lead, hlead, name, hname, rfl⟩)
    · exact ⟨.currentDuration, .inl rfl, rfl⟩
    · simp only [List.mem_cons, List.not_mem_nil, or_false] at hlead
      obtain rfl | rfl | rfl := hlead
      · exact ⟨.themeColor name, .inr ⟨name, hname, rfl⟩, rfl⟩
      · exact ⟨.themeFont name, .inr ⟨name, hname, rfl⟩, rfl⟩
      · exact ⟨.placeholder name, .inr ⟨name, hname, rfl⟩, rfl⟩
  · rintro ⟨t, rfl | ⟨name, hname, ht⟩, rfl⟩
    · exact .inl rfl
    · right
      cases t with
      | currentDuration => exact nomatch ht
      | themeColor _ =>
        obtain rfl := Option.some.inj ht
        exact ⟨colorLead, by simp, _, hname, rfl⟩
      | themeFont _ =>
        obtain rfl := Option.some.inj ht
        exact ⟨fontLead, by simp, _, hname, rfl⟩
      | placeholder _ =>
        obtain rfl := Option.some.inj ht
        exact ⟨placeholderLead, by simp, _, hname, rfl⟩

/-- Every text that is no marker is plain text. -/
theorem parse_eq_none_iff {text : String} : parse text = none ↔ ¬ IsMarker text := by
  rw [isMarker_iff, Option.eq_none_iff_forall_not_mem, not_exists]
  apply forall_congr'
  intro t
  rw [Option.mem_def, parse_eq_some_iff]

end Token

namespace Json

/-- Data without parts. -/
def IsScalar : Json → Prop
  | .array _ | .object _ => False
  | .null | .bool _ | .number _ | .string _ | .unreadable => True

/-- A literal that is not taken for anything else: a scalar, and no marker. -/
def IsPlain (j : Json) : Prop := j.IsScalar ∧ ∀ text, j = .string text → ¬ Token.IsMarker text

end Json

namespace Value

mutual

/-- The literals of a value from left to right. -/
def literals : Value → List Json
  | .token _ => []
  | .literal j => [j]
  | .array items => itemLiterals items
  | .object fields => fieldLiterals fields

def itemLiterals : List Value → List Json
  | [] => []
  | v :: rest => literals v ++ itemLiterals rest

def fieldLiterals : List (String × Value) → List Json
  | [] => []
  | (_, v) :: rest => literals v ++ fieldLiterals rest

end

private theorem ofJson_marker_iff (t : Token) : ofJson (.string t.marker) = .token t ↔ t.Named := by
  have hparse : Token.parse t.marker = some t ↔ t.Named := by
    simp [Token.parse_eq_some_iff]
  rw [← hparse, ofJson]
  cases Token.parse t.marker <;> simp

private theorem ofJson_eq_literal_iff (j : Json) : ofJson j = .literal j ↔ j.IsPlain := by
  cases j with
  | string s =>
    rw [ofJson]
    cases h : Token.parse s <;> simp [Json.IsPlain, Json.IsScalar, ← Token.parse_eq_none_iff, h]
  | _ => simp [ofJson, Json.IsPlain, Json.IsScalar]

mutual

private theorem ofJson_toJson : ∀ v : Value, ofJson v.toJson = v ↔
    (∀ t ∈ v.tokens, t.Named) ∧ ∀ j ∈ v.literals, j.IsPlain
  | .token t => by simp [toJson, ofJson_marker_iff, tokens, literals]
  | .literal j => by simp [toJson, ofJson_eq_literal_iff, tokens, literals]
  | .array items => by
    rw [toJson, ofJson, array.injEq, ofItems_toItems items, tokens, literals]
  | .object fields => by
    rw [toJson, ofJson, object.injEq, ofFields_toFields fields, tokens, literals]

private theorem ofItems_toItems : ∀ items : List Value, ofItems (toItems items) = items ↔
    (∀ t ∈ itemTokens items, t.Named) ∧ ∀ j ∈ itemLiterals items, j.IsPlain
  | [] => by simp [toItems, ofItems, itemTokens, itemLiterals]
  | v :: rest => by
    rw [toItems, ofItems, List.cons.injEq, ofJson_toJson v, ofItems_toItems rest, itemTokens,
      itemLiterals, List.forall_mem_append, List.forall_mem_append, and_and_and_comm]

private theorem ofFields_toFields : ∀ fields : List (String × Value),
    ofFields (toFields fields) = fields ↔
      (∀ t ∈ fieldTokens fields, t.Named) ∧ ∀ j ∈ fieldLiterals fields, j.IsPlain
  | [] => by simp [toFields, ofFields, fieldTokens, fieldLiterals]
  | (name, v) :: rest => by
    rw [toFields, ofFields, List.cons.injEq, Prod.mk.injEq, ofJson_toJson v, ofFields_toFields rest,
      fieldTokens, fieldLiterals, List.forall_mem_append, List.forall_mem_append,
      and_iff_right rfl, and_and_and_comm]

end

/-- Data comes back from the value that was parsed from it. A tree of values comes back from the
data that it writes if and only if every token in it has its name, every literal is a scalar, and
no literal text is a marker. -/
theorem parsing_writing_inverse :
    (∀ j : Json, (ofJson j).toJson = j) ∧
      ∀ v : Value, ofJson v.toJson = v ↔
        (∀ t ∈ v.tokens, t.Named) ∧ ∀ j ∈ v.literals, j.IsPlain :=
  ⟨toJson_ofJson, ofJson_toJson⟩

end Value

end MotionTemplate
