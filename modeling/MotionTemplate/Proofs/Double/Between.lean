import MotionTemplate.Proofs.Double.Whole

/-! Results that rounding keeps between two doubles. A part of a number does not pass the number, a
quotient by a greater number stays below one, and what is mixed of two numbers lies between them. -/
namespace MotionTemplate.Number
open Float.Model (UnpackedFloat)
open Float.Model.UnpackedFloat

variable {x y t low high : Float}

theorem isFinite_of_mem (hlow : low.isFinite) (hhigh : high.isFinite)
    (h : low ≤ x ∧ x ≤ high) : x.isFinite := by
  obtain ⟨-, hn, hx⟩ := le_iff.1 h.1
  obtain ⟨-, -, hx'⟩ := le_iff.1 h.2
  obtain ⟨-, hl, -⟩ := isFinite_iff.1 hlow
  obtain ⟨-, -, hh⟩ := isFinite_iff.1 hhigh
  exact isFinite_iff.2 ⟨hn, Int.lt_of_lt_of_le hl hx, Int.lt_of_le_of_lt hx' hh⟩

section

variable (hx : x.isFinite) (hy : y.isFinite)
include hx hy

private theorem rounds_sum :
    Rounds (amount (form x) + amount (form y)) (add .binary64 (form x) (form y)) :=
  rounds_add (trim_form hx) (trim_form hy)

private theorem rounds_product :
    Rounds (amount (form x) * amount (form y)) (mul .binary64 (form x) (form y)) :=
  rounds_mul (trim_form hx) (trim_form hy)

theorem isNaN_add_of_isFinite : (x + y).isNaN = false := by
  have hle : x + y ≤ x + y := (rounds_sum hx hy).ofForm_le (rounds_sum hx hy) le_rfl
  exact (le_iff.1 hle).1

theorem le_add_of_nonneg (h : 0 ≤ y) : x ≤ x + y := by
  have ha : 0 ≤ amount (form y) := (le_iff_amount (by decide) hy).1 h
  have hle := (rounds_self (trim_form hx)).ofForm_le (rounds_sum hx hy)
    (le_add_of_nonneg_right ha)
  rwa [ofForm_form] at hle

theorem add_le_of_nonpos (h : y ≤ 0) : x + y ≤ x := by
  have ha : amount (form y) ≤ 0 := (le_iff_amount hy (by decide)).1 h
  have hle := (rounds_sum hx hy).ofForm_le (rounds_self (trim_form hx))
    (add_le_of_nonpos_right ha)
  rwa [ofForm_form] at hle

end

section

variable (ht0 : 0 ≤ t) (ht1 : t ≤ 1)
include ht0 ht1

private theorem amount_of_part : t.isFinite ∧ 0 ≤ amount (form t) ∧ amount (form t) ≤ 1 := by
  have ht : t.isFinite := isFinite_of_le ht0 ht1 (by decide)
  have hone := (le_iff_amount ht (by decide)).1 ht1
  rw [amount_one] at hone
  exact ⟨ht, (le_iff_amount (by decide) ht).1 ht0, hone⟩

/-- A part of a number that is not negative. -/
theorem mul_mem_of_nonneg (hx : x.isFinite) (h : 0 ≤ x) : 0 ≤ x * t ∧ x * t ≤ x := by
  obtain ⟨ht, ha0, ha1⟩ := amount_of_part ht0 ht1
  have hx0 : 0 ≤ amount (form x) := (le_iff_amount (by decide) hx).1 h
  have hr := rounds_product hx ht
  have hhigh := hr.ofForm_le (rounds_self (trim_form hx)) (mul_le_of_le_one_right hx0 ha1)
  rw [ofForm_form] at hhigh
  exact ⟨(rounds_zero .positive).ofForm_le hr (mul_nonneg hx0 ha0), hhigh⟩

/-- A part of a number that is not positive. -/
theorem mul_mem_of_nonpos (hx : x.isFinite) (h : x ≤ 0) : x ≤ x * t ∧ x * t ≤ 0 := by
  obtain ⟨ht, ha0, ha1⟩ := amount_of_part ht0 ht1
  have hx0 : amount (form x) ≤ 0 := (le_iff_amount hx (by decide)).1 h
  have hr := rounds_product hx ht
  have hlow := (rounds_self (trim_form hx)).ofForm_le hr (le_mul_of_le_one_right hx0 ha1)
  rw [ofForm_form] at hlow
  exact ⟨hlow, hr.ofForm_le (rounds_zero .positive) (mul_nonpos_of_nonpos_of_nonneg hx0 ha0)⟩

end

/-- Two numbers, the second of which is the first and the difference to it in rounded arithmetic. -/
structure Joined (x y : Float) : Prop where
  first : x.isFinite
  difference : (y - x).isFinite
  meets : x + (y - x) = y

instance (x y : Float) : Decidable (Joined x y) :=
  decidable_of_iff (x.isFinite ∧ (y - x).isFinite ∧ x + (y - x) = y)
    ⟨fun ⟨hfirst, hdiff, hmeets⟩ => ⟨hfirst, hdiff, hmeets⟩,
      fun ⟨hfirst, hdiff, hmeets⟩ => ⟨hfirst, hdiff, hmeets⟩⟩

/-- What is mixed of two joined numbers is in every range that holds both. -/
theorem Joined.mix_mem (h : Joined x y) (ht0 : 0 ≤ t) (ht1 : t ≤ 1)
    (hx : low ≤ x ∧ x ≤ high) (hy : low ≤ y ∧ y ≤ high) :
    low ≤ x + (y - x) * t ∧ x + (y - x) * t ≤ high := by
  obtain ⟨hfirst, hdiff, hmeets⟩ := h
  have hsum : (x + (y - x)).isNaN = false := isNaN_add_of_isFinite hfirst hdiff
  rcases lt_or_le (isFinite_iff.1 hdiff).1 (show (0 : Float).isNaN = false from rfl)
    with hdown | hup
  · obtain ⟨hpast, hpart⟩ := mul_mem_of_nonpos ht0 ht1 hdiff (le_of_lt hdown)
    have hfinite := isFinite_of_mem hdiff (by decide) ⟨hpast, hpart⟩
    have hend := add_le_add_of_le hpast hsum (isNaN_add_of_isFinite hfirst hfinite)
    rw [hmeets] at hend
    exact ⟨Number.le_trans hy.1 hend,
      Number.le_trans (add_le_of_nonpos hfirst hfinite hpart) hx.2⟩
  · obtain ⟨hpart, hpast⟩ := mul_mem_of_nonneg ht0 ht1 hdiff hup
    have hfinite := isFinite_of_mem (by decide) hdiff ⟨hpart, hpast⟩
    have hend := add_le_add_of_le hpast (isNaN_add_of_isFinite hfirst hfinite) hsum
    rw [hmeets] at hend
    exact ⟨Number.le_trans hx.1 (le_add_of_nonneg hfirst hfinite hpart),
      Number.le_trans hend hy.2⟩

/-- The form of the greatest double below one. -/
private def belowOne : UnpackedFloat := .finite .positive 9007199254740991 (-53) (by decide)

private theorem trim_belowOne : Trim belowOne := ⟨by decide, by decide, .inl (by decide)⟩

private theorem ofForm_belowOne_lt : ofForm belowOne < 1 := by decide +kernel

/-- On the grid of the smaller number the greater one is at least one step further, and a mantissa
leaves that step room below one. -/
private theorem amount_div_le (hx : x.isFinite) (hx0 : 0 ≤ x) (h : x < y) (hy : y.isFinite) :
    amount (form x) / amount (form y) ≤ amount belowOne := by
  have hy0 : 0 < y := Number.lt_of_le_of_lt hx0 h
  have hbelow : amount belowOne = 9007199254740991 / 9007199254740992 := by
    rw [belowOne, amount, withSign]
    norm_num
  obtain ⟨n, f, hn, hyf⟩ := finite_form_of_pos hy hy0
  obtain ⟨s, hs⟩ | ⟨m, e, hm, hxf⟩ := finite_form_of_nonneg hx hx0
  · rw [hs, amount_zero, zero_div, hbelow]
    norm_num
  · have hu : Fits (.finite .positive m e hm) := hxf ▸ fits_form x
    have hv : Fits (.finite .positive n f hn) := hyf ▸ fits_form y
    have hplace : place (.finite .positive m e hm) < place (.finite .positive n f hn) := by
      have hlt := (lt_iff.1 h).2.2
      rwa [position, position, hxf, hyf] at hlt
    obtain ⟨hef, hlt⟩ := mantissa_lt_of_place_lt hu hv hplace
    have hmlt : m < 9007199254740992 := hu.1
    obtain ⟨k, hk⟩ : ∃ k, k = (f - e).toNat := ⟨_, rfl⟩
    rw [← hk] at hlt
    have hgrid : (2 : ℚ) ^ f = 2 ^ k * 2 ^ e := two_zpow_eq k (by omega)
    have hsteps : m * 9007199254740992 ≤ 9007199254740991 * n <<< k := by omega
    have hcast : (m : ℚ) * 9007199254740992 ≤ 9007199254740991 * (n * 2 ^ k) := by
      rw [Nat.shiftLeft_eq] at hsteps
      exact_mod_cast hsteps
    have hpow : (0 : ℚ) < 2 ^ e := zpow_pos two_pos _
    rw [hxf, hyf, hbelow, amount, amount, withSign, withSign, hgrid, ← mul_assoc (n : ℚ),
      mul_div_mul_right _ _ hpow.ne', div_le_div_iff₀ (by positivity) (by norm_num)]
    exact hcast

/-- The quotient by a greater number is below one, also after rounding. -/
theorem div_lt_one (hx0 : 0 ≤ x) (h : x < y) (hy : y.isFinite) : x / y < 1 := by
  have hx : x.isFinite := isFinite_of_le hx0 (le_of_lt h) hy
  obtain ⟨n, f, hn, hyf⟩ := finite_form_of_pos hy (Number.lt_of_le_of_lt hx0 h)
  have hquot := amount_div_le hx hx0 h hy
  rw [hyf] at hquot
  have hle : x / y ≤ ofForm belowOne := by
    rw [div_eq_ofForm hyf]
    exact (rounds_div (trim_form hx) hn f).ofForm_le (rounds_self trim_belowOne) hquot
  exact Number.lt_of_le_of_lt hle ofForm_belowOne_lt

end MotionTemplate.Number
