import MotionTemplate.Proofs.Double.Form

/-! The order of doubles is that of their places on an integer line, except that an undefined value
is never below or above anything. -/
namespace MotionTemplate.Number
open Float.Model (UnpackedFloat)
open Float.Model.UnpackedFloat (Sign)

/-- The place of a form among the others. Zeros share one, and an undefined value has none of its
own. -/
def place : UnpackedFloat → Int
  | .notANumber | .zero _ => 0
  | .infinity s => s.apply 18446744073709551616
  | .finite s m e _ => s.apply ((e + 1075) * 9007199254740992 + m)

/-- Of two mantissas at their exponents the one with the greater exponent is the greater. -/
private theorem compare_lexicographic {m n : Nat} {e f : Int} (hm : m < 9007199254740992)
    (hn : n < 9007199254740992) :
    (compare e f).then (compare m n) =
      compare ((e + 1075) * 9007199254740992 + m) ((f + 1075) * 9007199254740992 + n) := by
  rcases Int.lt_trichotomy e f with h | rfl | h
  · rw [Int.compare_eq_lt.2 h, Int.compare_eq_lt.2 (by omega)]
    rfl
  · rw [Int.compare_eq_eq.2 rfl, Ordering.eq_then]
    rcases Nat.lt_trichotomy m n with h | rfl | h
    · rw [Nat.compare_eq_lt.2 h, Int.compare_eq_lt.2 (by omega)]
    · rw [Nat.compare_eq_eq.2 rfl, Int.compare_eq_eq.2 rfl]
    · rw [Nat.compare_eq_gt.2 h, Int.compare_eq_gt.2 (by omega)]
  · rw [Int.compare_eq_gt.2 h, Int.compare_eq_gt.2 (by omega)]
    rfl

private theorem compare_neg (a b : Int) : compare (-a) (-b) = (compare a b).swap := by
  rcases Int.lt_trichotomy a b with h | rfl | h
  · rw [Int.compare_eq_lt.2 h, Int.compare_eq_gt.2 (by omega)]
    rfl
  · rw [Int.compare_eq_eq.2 rfl, Int.compare_eq_eq.2 rfl]
    rfl
  · rw [Int.compare_eq_gt.2 h, Int.compare_eq_lt.2 (by omega)]
    rfl

private theorem compare_finite {s t : Sign} {m n : Nat} {e f : Int} {hm : 0 < m} {hn : 0 < n}
    (hu : Fits (.finite s m e hm)) (hv : Fits (.finite t n f hn)) :
    UnpackedFloat.compare (.finite s m e hm) (.finite t n f hn) =
      some (compare (place (.finite s m e hm)) (place (.finite t n f hn))) := by
  obtain ⟨hm', he, -, -⟩ := hu
  obtain ⟨hn', hf, -, -⟩ := hv
  cases s <;> cases t <;> simp only [UnpackedFloat.compare, place, Sign.apply, Option.some.injEq]
  case negative.negative => rw [compare_neg, compare_lexicographic hm' hn']
  case negative.positive => exact (Int.compare_eq_lt.2 (by omega)).symm
  case positive.negative => exact (Int.compare_eq_gt.2 (by omega)).symm
  case positive.positive => exact compare_lexicographic hm' hn'

/-- Forms that are not undefined compare as their places do. -/
theorem compare_eq_place {u v : UnpackedFloat} (hu : Fits u) (hv : Fits v)
    (hu' : u.isNaN = false) (hv' : v.isNaN = false) :
    u.compare v = some (compare (place u) (place v)) := by
  cases u with
  | notANumber => simp [UnpackedFloat.isNaN] at hu'
  | infinity s =>
    cases v with
    | notANumber => simp [UnpackedFloat.isNaN] at hv'
    | infinity t => cases s <;> cases t <;> rfl
    | zero t => cases s <;> rfl
    | finite t n f hn =>
      obtain ⟨hn', hf, hf', -⟩ := hv
      cases s <;> cases t <;> simp only [UnpackedFloat.compare, place, Sign.apply]
      · rw [Int.compare_eq_lt.2 (by omega)]
      · rw [Int.compare_eq_lt.2 (by omega)]
      · rw [Int.compare_eq_gt.2 (by omega)]
      · rw [Int.compare_eq_gt.2 (by omega)]
  | zero s =>
    cases v with
    | notANumber => simp [UnpackedFloat.isNaN] at hv'
    | infinity t => cases t <;> rfl
    | zero t => rfl
    | finite t n f hn =>
      obtain ⟨hn', hf, hf', -⟩ := hv
      cases t <;> simp only [UnpackedFloat.compare, place, Sign.apply]
      · rw [Int.compare_eq_gt.2 (by omega)]
      · rw [Int.compare_eq_lt.2 (by omega)]
  | finite s m e hm =>
    cases v with
    | notANumber => simp [UnpackedFloat.isNaN] at hv'
    | infinity t =>
      obtain ⟨hm', he, he', -⟩ := hu
      cases s <;> cases t <;> simp only [UnpackedFloat.compare, place, Sign.apply]
      · rw [Int.compare_eq_gt.2 (by omega)]
      · rw [Int.compare_eq_lt.2 (by omega)]
      · rw [Int.compare_eq_gt.2 (by omega)]
      · rw [Int.compare_eq_lt.2 (by omega)]
    | zero t =>
      obtain ⟨hm', he, he', -⟩ := hu
      cases s <;> simp only [UnpackedFloat.compare, place, Sign.apply]
      · rw [Int.compare_eq_lt.2 (by omega)]
      · rw [Int.compare_eq_gt.2 (by omega)]
    | finite t n f hn => exact compare_finite hu hv

theorem place_nonneg {u : UnpackedFloat} (hu : Fits u) (h : HasSign .positive u) :
    0 ≤ place u := by
  cases u with
  | notANumber => exact h.elim
  | infinity s =>
    obtain rfl : s = .positive := h
    exact Int.natCast_nonneg 18446744073709551616
  | zero s => exact Int.le_refl 0
  | finite s m e hm =>
    obtain rfl : s = .positive := h
    obtain ⟨-, he, -, -⟩ := hu
    simp only [place, Sign.apply]
    omega

/-- The place of a double. -/
def position (x : Float) : Int := place (form x)

theorem isFinite_iff {x : Float} :
    x.isFinite ↔ x.isNaN = false ∧
      -18446744073709551616 < position x ∧ position x < 18446744073709551616 := by
  have h := fits_form x
  change (form x).isFinite ↔ (form x).isNaN = false ∧ _
  rw [position]
  cases hx : form x with
  | notANumber => simp [UnpackedFloat.isFinite, UnpackedFloat.isNaN]
  | infinity s => cases s <;> simp [UnpackedFloat.isFinite, UnpackedFloat.isNaN, place, Sign.apply]
  | zero s => simp [UnpackedFloat.isFinite, UnpackedFloat.isNaN, place]
  | finite s m e hm =>
    rw [hx] at h
    obtain ⟨hm', he, he', -⟩ := h
    cases s
    · exact iff_of_true rfl ⟨rfl, by simp only [place, Sign.apply]; omega⟩
    · exact iff_of_true rfl ⟨rfl, by simp only [place, Sign.apply]; omega⟩

private theorem compare_of_isNaN {u v : UnpackedFloat} (h : u.isNaN ∨ v.isNaN) :
    u.compare v = none := by
  cases u <;> cases v <;> simp_all [UnpackedFloat.isNaN, UnpackedFloat.compare]

/-- Two doubles compare as their places do, unless one of them is undefined. -/
private theorem compare_form (x y : Float) :
    (form x).compare (form y) =
      if x.isNaN ∨ y.isNaN then none else some (compare (position x) (position y)) := by
  split
  · next h => exact compare_of_isNaN h
  · next h =>
    rw [not_or, Bool.not_eq_true, Bool.not_eq_true] at h
    exact compare_eq_place (fits_form x) (fits_form y) h.1 h.2

/-- A test of a comparison is one of places, and fails where a value is undefined. -/
private theorem any_compare_form (x y : Float) (p : Ordering → Bool) :
    ((form x).compare (form y)).any p = true ↔
      x.isNaN = false ∧ y.isNaN = false ∧ p (compare (position x) (position y)) = true := by
  rw [compare_form]
  split
  · next hn =>
    refine iff_of_false Bool.false_ne_true ?_
    rintro ⟨hx, hy, -⟩
    exact hn.elim (fun h => Bool.false_ne_true (hx.symm.trans h))
      fun h => Bool.false_ne_true (hy.symm.trans h)
  · next hn =>
    rw [not_or, Bool.not_eq_true, Bool.not_eq_true] at hn
    exact ⟨fun h => ⟨hn.1, hn.2, h⟩, fun h => h.2.2⟩

private theorem beq_some_eq_any (o : Option Ordering) (r : Ordering) :
    (o == some r) = o.any (· == r) := by
  cases o <;> rfl

theorem lt_iff {x y : Float} :
    x < y ↔ x.isNaN = false ∧ y.isNaN = false ∧ position x < position y := by
  have h : x < y ↔ ((form x).compare (form y) == some .lt) = true := decide_eq_true_iff
  rw [h, beq_some_eq_any, any_compare_form, beq_iff_eq, Int.compare_eq_lt]

theorem le_iff {x y : Float} :
    x ≤ y ↔ x.isNaN = false ∧ y.isNaN = false ∧ position x ≤ position y := by
  have h : x ≤ y ↔ ((form x).compare (form y)).any (·.isLE) = true := decide_eq_true_iff
  rw [h, any_compare_form, Int.isLE_compare]

theorem beq_iff {x y : Float} :
    (x == y) = true ↔ x.isNaN = false ∧ y.isNaN = false ∧ position x = position y := by
  have h : (x == y) = ((form x).compare (form y) == some .eq) := rfl
  rw [h, beq_some_eq_any, any_compare_form, beq_iff_eq, Int.compare_eq_eq]

theorem nonneg_iff {x : Float} : 0 ≤ x ↔ x.isNaN = false ∧ 0 ≤ position x := by
  rw [le_iff]
  exact ⟨fun h => h.2, fun h => ⟨rfl, h⟩⟩

theorem pos_iff {x : Float} : 0 < x ↔ x.isNaN = false ∧ 0 < position x := by
  rw [lt_iff]
  exact ⟨fun h => h.2, fun h => ⟨rfl, h⟩⟩

/-- Below the positive forms only the negative zero is not negative. -/
theorem nonneg_iff_form {x : Float} :
    0 ≤ x ↔ form x = .zero .negative ∨ HasSign .positive (form x) := by
  have hf := fits_form x
  rw [nonneg_iff, position]
  change (form x).isNaN = false ∧ _ ↔ _
  constructor
  · rintro ⟨hn, hp⟩
    cases hx : form x with
    | notANumber => simp [hx, UnpackedFloat.isNaN] at hn
    | zero s => cases s <;> simp [HasSign]
    | infinity s =>
      cases s with
      | positive => exact .inr rfl
      | negative => simp [hx, place, Sign.apply] at hp
    | finite s m e hm =>
      cases s with
      | positive => exact .inr rfl
      | negative =>
        rw [hx] at hf hp
        obtain ⟨-, he, -, -⟩ := hf
        simp only [place, Sign.apply] at hp
        omega
  · rintro (hx | hx)
    · rw [hx]
      exact ⟨rfl, Int.le_refl 0⟩
    · exact ⟨isNaN_of_hasSign hx, place_nonneg hf hx⟩

theorem hasSign_of_pos {x : Float} (h : 0 < x) : HasSign .positive (form x) := by
  obtain ⟨hn, hp⟩ := pos_iff.1 h
  refine (nonneg_iff_form.1 (nonneg_iff.2 ⟨hn, Int.le_of_lt hp⟩)).resolve_left fun hx => ?_
  rw [position, hx] at hp
  exact Int.lt_irrefl 0 hp

theorem le_refl {x : Float} (h : x.isNaN = false) : x ≤ x := le_iff.2 ⟨h, h, Int.le_refl _⟩

protected theorem lt_irrefl (x : Float) : ¬ x < x := fun h => Int.lt_irrefl _ (lt_iff.1 h).2.2

theorem lt_or_le {x y : Float} (hx : x.isNaN = false) (hy : y.isNaN = false) :
    x < y ∨ y ≤ x := by
  rcases Int.lt_or_le (position x) (position y) with h | h
  · exact .inl (lt_iff.2 ⟨hx, hy, h⟩)
  · exact .inr (le_iff.2 ⟨hy, hx, h⟩)

theorem le_of_lt {x y : Float} (h : x < y) : x ≤ y := by
  obtain ⟨hx, hy, hlt⟩ := lt_iff.1 h
  exact le_iff.2 ⟨hx, hy, Int.le_of_lt hlt⟩

/-- Zeros apart, no two forms share a place. -/
private theorem eq_of_place_eq {u v : UnpackedFloat} (hu : Fits u) (hv : Fits v)
    (hsu : HasSign .positive u) (hsv : HasSign .positive v) (h : place u = place v) : u = v := by
  cases u with
  | notANumber => exact hsu.elim
  | infinity s =>
    obtain rfl : s = .positive := hsu
    cases v with
    | notANumber => exact hsv.elim
    | infinity t => rw [show t = .positive from hsv]
    | zero t => exact absurd h (by simp [place, Sign.apply])
    | finite t n f hn =>
      obtain rfl : t = .positive := hsv
      obtain ⟨hn', -, hf, -⟩ := hv
      simp only [place, Sign.apply] at h
      omega
  | zero s =>
    obtain rfl : s = .positive := hsu
    cases v with
    | notANumber => exact hsv.elim
    | infinity t =>
      obtain rfl : t = .positive := hsv
      exact absurd h (by simp [place, Sign.apply])
    | zero t => rw [show t = .positive from hsv]
    | finite t n f hn =>
      obtain rfl : t = .positive := hsv
      obtain ⟨-, hf, -, -⟩ := hv
      simp only [place, Sign.apply] at h
      omega
  | finite s m e hm =>
    obtain rfl : s = .positive := hsu
    obtain ⟨hm', he, he', -⟩ := hu
    cases v with
    | notANumber => exact hsv.elim
    | infinity t =>
      obtain rfl : t = .positive := hsv
      simp only [place, Sign.apply] at h
      omega
    | zero t =>
      simp only [place, Sign.apply] at h
      omega
    | finite t n f hn =>
      obtain rfl : t = .positive := hsv
      obtain ⟨hn', -, -, -⟩ := hv
      simp only [place, Sign.apply] at h
      obtain ⟨rfl, rfl⟩ : e = f ∧ m = n := by omega
      rfl

/-- Of positive sign, two doubles that are not above each other are the same. -/
theorem eq_of_le_of_le {x y : Float} (hx : HasSign .positive (form x))
    (hy : HasSign .positive (form y)) (h : x ≤ y) (h' : y ≤ x) : x = y := by
  have hplace : position x = position y :=
    Int.le_antisymm (le_iff.1 h).2.2 (le_iff.1 h').2.2
  exact form_injective (eq_of_place_eq (fits_form x) (fits_form y) hx hy hplace)

/-- Above zero, doubles that are equal as numbers are the same. -/
theorem beq_eq_decide {x y : Float} (hx : 0 < x) : (x == y) = decide (x = y) := by
  rw [Bool.eq_iff_iff, beq_iff, decide_eq_true_iff]
  obtain ⟨hn, hp⟩ := pos_iff.1 hx
  constructor
  · rintro ⟨-, hyn, heq⟩
    have hy : 0 < y := pos_iff.2 ⟨hyn, heq ▸ hp⟩
    exact form_injective
      (eq_of_place_eq (fits_form x) (fits_form y) (hasSign_of_pos hx) (hasSign_of_pos hy) heq)
  · rintro rfl
    exact ⟨hn, hn, rfl⟩

theorem not_lt_of_le {x y : Float} (h : y ≤ x) : ¬ x < y := by
  intro hlt
  have hle := (le_iff.1 h).2.2
  have hlt := (lt_iff.1 hlt).2.2
  omega

theorem not_le_of_lt {x y : Float} (h : y < x) : ¬ x ≤ y := fun hle => not_lt_of_le hle h

theorem not_lt_of_isNaN {x y : Float} (h : x.isNaN) : ¬ x < y := by
  intro hlt
  rw [(lt_iff.1 hlt).1] at h
  exact Bool.false_ne_true h

theorem not_lt_of_isNaN_right {x y : Float} (h : y.isNaN) : ¬ x < y := by
  intro hlt
  rw [(lt_iff.1 hlt).2.1] at h
  exact Bool.false_ne_true h

protected theorem le_trans {x y z : Float} (h : x ≤ y) (h' : y ≤ z) : x ≤ z := by
  obtain ⟨hx, -, hxy⟩ := le_iff.1 h
  obtain ⟨-, hz, hyz⟩ := le_iff.1 h'
  exact le_iff.2 ⟨hx, hz, Int.le_trans hxy hyz⟩

protected theorem lt_of_lt_of_le {x y z : Float} (h : x < y) (h' : y ≤ z) : x < z := by
  obtain ⟨hx, -, hxy⟩ := lt_iff.1 h
  obtain ⟨-, hz, hyz⟩ := le_iff.1 h'
  exact lt_iff.2 ⟨hx, hz, Int.lt_of_lt_of_le hxy hyz⟩

protected theorem lt_of_le_of_lt {x y z : Float} (h : x ≤ y) (h' : y < z) : x < z := by
  obtain ⟨hx, -, hxy⟩ := le_iff.1 h
  obtain ⟨-, hz, hyz⟩ := lt_iff.1 h'
  exact lt_iff.2 ⟨hx, hz, Int.lt_of_le_of_lt hxy hyz⟩

theorem isFinite_of_le {x y : Float} (hx : 0 ≤ x) (hxy : x ≤ y) (hy : y.isFinite) :
    x.isFinite := by
  obtain ⟨hn, h0⟩ := nonneg_iff.1 hx
  obtain ⟨-, -, hle⟩ := le_iff.1 hxy
  obtain ⟨-, -, hlt⟩ := isFinite_iff.1 hy
  exact isFinite_iff.2 ⟨hn, by omega, by omega⟩

theorem not_isFinite_of_isNaN {x : Float} (h : x.isNaN) : ¬ x.isFinite := by
  intro hf
  rw [(isFinite_iff.1 hf).1] at h
  exact Bool.false_ne_true h

theorem atLeastZero_nonneg (x : Float) : 0 ≤ atLeastZero x := by
  rw [atLeastZero]
  split
  · next h => exact le_of_lt h
  · decide

theorem atLeastZero_le_atLeastZero {x y : Float} (h : x ≤ y) : atLeastZero x ≤ atLeastZero y := by
  by_cases hx : 0 < x
  · rwa [atLeastZero, if_pos hx, atLeastZero, if_pos (Number.lt_of_lt_of_le hx h)]
  · rw [atLeastZero, if_neg hx]
    exact atLeastZero_nonneg y

theorem isFinite_atLeastZero {x : Float} (h : x.isFinite) : (atLeastZero x).isFinite := by
  rw [atLeastZero]
  split
  · exact h
  · rfl

theorem clamp_mem {x low high : Float} (hx : x.isNaN = false) (h : low ≤ high) :
    low ≤ clamp x low high ∧ clamp x low high ≤ high := by
  obtain ⟨hl, hh, -⟩ := le_iff.1 h
  rw [clamp]
  split
  · exact ⟨le_refl hl, h⟩
  · next h₁ =>
    have hlx : low ≤ x := (lt_or_le hx hl).resolve_left h₁
    split
    · exact ⟨h, le_refl hh⟩
    · next h₂ => exact ⟨hlx, (lt_or_le hh hx).resolve_left h₂⟩

theorem clamp_of_not_lt {x low high : Float} (hlow : ¬ x < low) (hhigh : ¬ high < x) :
    clamp x low high = x := by
  rw [clamp, if_neg hlow, if_neg hhigh]

theorem clamp_le_clamp {x y low high : Float} (h : x ≤ y) (hb : low ≤ high) :
    clamp x low high ≤ clamp y low high := by
  obtain ⟨hx, hy, -⟩ := le_iff.1 h
  by_cases hlow : x < low
  · rw [clamp, if_pos hlow]
    exact (clamp_mem hy hb).1
  · have hly : ¬ y < low := fun hlt => hlow (Number.lt_of_le_of_lt h hlt)
    rw [clamp.eq_def y, if_neg hly]
    split
    · exact (clamp_mem hx hb).2
    · next hhigh =>
      have hhx : ¬ high < x := fun hlt => hhigh (Number.lt_of_lt_of_le hlt h)
      rwa [clamp_of_not_lt hlow hhx]

theorem clamp_of_isNaN {x low high : Float} (h : x.isNaN) : clamp x low high = x :=
  clamp_of_not_lt (not_lt_of_isNaN h) (not_lt_of_isNaN_right h)

end MotionTemplate.Number
