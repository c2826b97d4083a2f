import MotionTemplate.Json.Parser

/-! Data that texts hold. Every number that is read from a text is an integer of 64 bits or a finite
double. -/
namespace MotionTemplate

/-- The numbers that a text can hold. -/
def Numeral.Storable : Numeral → Prop
  | .whole n => -9223372036854775808 ≤ n ∧ n < 18446744073709551616
  | .real x => x.isFinite

namespace Json

/-- Data of which every number can be stored. -/
inductive Sound : Json → Prop
  | null : Sound .null
  | bool (b : Bool) : Sound (.bool b)
  | number {n : Numeral} (h : n.Storable) : Sound (.number n)
  | string (s : String) : Sound (.string s)
  | array {items : List Json} (h : ∀ j ∈ items, Sound j) : Sound (.array items)
  | object {fields : List (String × Json)} (h : ∀ f ∈ fields, Sound f.2) : Sound (.object fields)
  | unreadable : Sound .unreadable

private theorem sound_real (x : Float) : (real x).Sound := by
  rw [real]
  split
  · next h => exact .number h
  · exact .unreadable

private theorem sound_integer (negative : Bool) (n : Nat) : (integer negative n).Sound := by
  rw [integer]
  split
  · split
    · next h =>
      refine .number ?_
      simp only [Numeral.Storable]
      omega
    · exact sound_real _
  · split
    · next h =>
      refine .number ?_
      simp only [Numeral.Storable]
      omega
    · exact sound_real _

private theorem sound_unsigned? {negative : Bool} {text rest : Rest} {j : Json}
    (h : unsigned? negative text = some (j, rest)) : j.Sound := by
  simp only [unsigned?, Option.bind_eq_bind, Option.bind_eq_some_iff] at h
  obtain ⟨⟨whole, text₁⟩, -, ⟨digits, places, text₂⟩, -, ⟨exponent, text₃⟩, -, h⟩ := h
  split at h
  · obtain ⟨rfl, -⟩ := Prod.mk.inj (Option.some.inj h)
    exact sound_integer _ _
  · obtain ⟨rfl, -⟩ := Prod.mk.inj (Option.some.inj h)
    exact sound_real _

private theorem eq_of_word? {word : String} {value j : Json} {text rest : Rest}
    (h : word? word value text = some (j, rest)) : j = value := by
  rw [word?] at h
  split at h
  · exact (Prod.mk.inj (Option.some.inj h)).1.symm
  · exact nomatch h

/-- What the readers give with so much fuel is sound. -/
private structure ReadsSound (fuel : Nat) : Prop where
  value {text rest : Rest} {j : Json} (h : readValue? fuel text = some (j, rest)) : j.Sound
  items {text rest : Rest} {found : List Json} (h : readItems? fuel text = some (found, rest)) :
    ∀ j ∈ found, j.Sound
  fields {text rest : Rest} {found : List (String × Json)}
    (h : readFields? fuel text = some (some found, rest)) : ∀ f ∈ found, f.2.Sound

section

variable {fuel : Nat} {text rest : Rest}

private theorem sound_readValue? (ih : ReadsSound fuel) {j : Json}
    (h : readValue? (fuel + 1) text = some (j, rest)) : j.Sound := by
  rw [readValue?] at h
  split at h
  · exact eq_of_word? h ▸ .null
  · exact eq_of_word? h ▸ .bool true
  · exact eq_of_word? h ▸ .bool false
  · obtain ⟨⟨s, left⟩, -, h⟩ := Option.map_eq_some_iff.1 h
    obtain ⟨rfl, -⟩ := Prod.mk.inj h
    cases s with
    | none => exact .unreadable
    | some s => exact .string s
  · split at h
    · obtain ⟨rfl, -⟩ := Prod.mk.inj (Option.some.inj h)
      exact .array nofun
    · obtain ⟨⟨found, left⟩, hfound, h⟩ := Option.map_eq_some_iff.1 h
      obtain ⟨rfl, -⟩ := Prod.mk.inj h
      exact .array (ih.items hfound)
  · split at h
    · obtain ⟨rfl, -⟩ := Prod.mk.inj (Option.some.inj h)
      exact .object nofun
    · obtain ⟨⟨found, left⟩, hfound, h⟩ := Option.map_eq_some_iff.1 h
      obtain ⟨rfl, -⟩ := Prod.mk.inj h
      cases found with
      | none => exact .unreadable
      | some found => exact .object (ih.fields hfound)
  · exact sound_unsigned? h
  · exact sound_unsigned? h

private theorem sound_readItems? (ih : ReadsSound fuel) {found : List Json}
    (h : readItems? (fuel + 1) text = some (found, rest)) : ∀ j ∈ found, j.Sound := by
  rw [readItems?] at h
  split at h
  · exact nomatch h
  · next item left hitem =>
    split at h
    · obtain ⟨⟨more, last⟩, hmore, h⟩ := Option.map_eq_some_iff.1 h
      obtain ⟨rfl, -⟩ := Prod.mk.inj h
      exact List.forall_mem_cons.2 ⟨ih.value hitem, ih.items hmore⟩
    · obtain ⟨rfl, -⟩ := Prod.mk.inj (Option.some.inj h)
      exact List.forall_mem_singleton.2 (ih.value hitem)
    · exact nomatch h

private theorem sound_readFields? (ih : ReadsSound fuel) {found : List (String × Json)}
    (h : readFields? (fuel + 1) text = some (some found, rest)) : ∀ f ∈ found, f.2.Sound := by
  rw [readFields?] at h
  split at h
  · split at h
    · exact nomatch h
    · next name left hname =>
      split at h
      · split at h
        · exact nomatch h
        · next value left hvalue =>
          have hsound := ih.value hvalue
          split at h
          · obtain ⟨⟨more, last⟩, hmore, h⟩ := Option.map_eq_some_iff.1 h
            obtain ⟨hfound, -⟩ := Prod.mk.inj h
            simp only [Option.bind_eq_bind, Option.bind_eq_some_iff,
              Option.map_eq_some_iff] at hfound
            obtain ⟨_, ⟨s, -, rfl⟩, others, rfl, heq⟩ := hfound
            obtain rfl := Option.some.inj heq
            exact List.forall_mem_cons.2 ⟨hsound, ih.fields hmore⟩
          · obtain ⟨hfound, -⟩ := Prod.mk.inj (Option.some.inj h)
            simp only [Option.map_map, Option.map_eq_some_iff] at hfound
            obtain ⟨s, -, rfl⟩ := hfound
            exact List.forall_mem_singleton.2 hsound
          · exact nomatch h
      · exact nomatch h
  · exact nomatch h

end

private theorem readsSound (fuel : Nat) : ReadsSound fuel := by
  induction fuel with
  | zero =>
    refine ⟨fun h => ?_, fun h => ?_, fun h => ?_⟩
    · rw [readValue?] at h
      exact nomatch h
    · rw [readItems?] at h
      exact nomatch h
    · rw [readFields?] at h
      exact nomatch h
  | succ fuel ih => exact ⟨sound_readValue? ih, sound_readItems? ih, sound_readFields? ih⟩

/-- Reading a text gives sound data. -/
theorem sound_of_parse? {text : String} {j : Json} (h : parse? text = some j) : j.Sound := by
  rw [parse?] at h
  split at h
  · next value rest hvalue =>
    split at h
    · obtain rfl := Option.some.inj h
      exact (readsSound _).value hvalue
    · exact nomatch h
  · exact nomatch h

end Json

end MotionTemplate
