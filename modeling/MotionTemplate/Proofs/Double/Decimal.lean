import MotionTemplate.Number.Reading
import MotionTemplate.Number.Shortest
import MotionTemplate.Proofs.Double.Rounding

/-! Doubles read from decimals. A decimal is read as the double in whose cell it lies, by whichever
of the ways of computing its quotient or product. -/
namespace MotionTemplate.Number
open Float.Model (UnpackedFloat Format totalExponent)
open Float.Model.UnpackedFloat

section

variable {v : ℚ} {m m₁ m₂ : Nat} {e e₁ e₂ : Int} {hm : 0 < m} {h₁ : 0 < m₁} {h₂ : 0 < m₂}

theorem mul_eq (hfits : Fits (.finite .positive m e hm)) (hcell : Cell m e v)
    (hv : v = (m₁ * 2 ^ e₁) * (m₂ * 2 ^ e₂)) (hbits : 52 ≤ (m₁ * m₂).log2) :
    mul .binary64 (.finite .positive m₁ e₁ h₁) (.finite .positive m₂ e₂ h₂) =
      .finite .positive m e hm := by
  have hd : Describes (.ofMantissaAndAccuracy (m₁ * m₂) .exact) (v / 2 ^ (e₁ + e₂)) := by
    have hne : (2 : ℚ) ^ (e₁ + e₂) ≠ 0 := zpow_ne_zero _ two_ne_zero
    have hexact : v / 2 ^ (e₁ + e₂) = ((m₁ * m₂ : Nat) : ℚ) := by
      rw [div_eq_iff hne, hv, zpow_add₀ two_ne_zero, Nat.cast_mul]
      ring
    rw [hexact]
    exact describes_natCast _
  exact roundWithAccuracy_eq hm hd (by omega) hfits hcell

private theorem describes_div (a : Nat) {b : Nat} (hb : 0 < b) :
    Describes (.ofMantissaAndAccuracy (a / b) (accuracyOfFraction (a % b) b)) ((a : ℚ) / b) := by
  have hb' : (0 : ℚ) < b := Nat.cast_pos.2 hb
  have hlt : ((a % b : Nat) : ℚ) < b := Nat.cast_lt.2 (Nat.mod_lt a hb)
  have hsum : (a : ℚ) = b * (a / b : Nat) + (a % b : Nat) := by
    rw [← Nat.cast_mul, ← Nat.cast_add, Nat.div_add_mod]
  rw [accuracyOfFraction]
  generalize a / b = q at hsum ⊢
  generalize a % b = r at hsum hlt ⊢
  split
  · next h0 =>
    rw [h0, Nat.cast_zero, add_zero] at hsum
    change (a : ℚ) / b = q
    rw [hsum, mul_div_cancel_left₀ _ hb'.ne']
  · next h0 =>
    have hr : (0 : ℚ) < r := Nat.cast_pos.2 (Nat.pos_of_ne_zero h0)
    rcases Nat.lt_trichotomy (2 * r) b with h | h | h
    · rw [Nat.compare_eq_lt.2 h]
      have h' : (2 : ℚ) * r < b := by exact_mod_cast h
      change (q : ℚ) < a / b ∧ (a : ℚ) / b < q + 1 / 2
      rw [lt_div_iff₀ hb', div_lt_iff₀ hb']
      constructor <;> linarith
    · rw [Nat.compare_eq_eq.2 h]
      have h' : (2 : ℚ) * r = b := by exact_mod_cast h
      change (a : ℚ) / b = q + 1 / 2
      rw [div_eq_iff hb'.ne']
      linarith
    · rw [Nat.compare_eq_gt.2 h]
      have h' : (b : ℚ) < 2 * r := by exact_mod_cast h
      change (q : ℚ) + 1 / 2 < a / b ∧ (a : ℚ) / b < q + 1
      rw [lt_div_iff₀ hb', div_lt_iff₀ hb']
      constructor <;> linarith

/-- A dividend shifted far enough leaves a quotient of 53 bits. -/
private theorem le_log2_quotient {a b k : Nat} (ha : 0 < a) (hb : 0 < b)
    (hk : b.log2 + 53 ≤ a.log2 + k) : 52 ≤ (a <<< k / b).log2 := by
  have ha' : 2 ^ (a.log2 + k) ≤ a <<< k := by
    rw [← log2_shiftLeft ha k]
    exact Nat.log2_self_le (Nat.shiftLeft_pos_iff.2 ha).ne'
  have hle : 2 ^ 52 ≤ a <<< k / b := by
    rw [Nat.le_div_iff_mul_le hb]
    calc 2 ^ 52 * b ≤ 2 ^ 52 * 2 ^ (b.log2 + 1) := Nat.mul_le_mul_left _ Nat.lt_log2_self.le
      _ = 2 ^ (b.log2 + 53) := by rw [← Nat.pow_add]; congr 1; omega
      _ ≤ 2 ^ (a.log2 + k) := Nat.pow_le_pow_right Nat.two_pos hk
      _ ≤ a <<< k := ha'
  exact (Nat.le_log2 (Nat.ne_of_gt (Nat.lt_of_lt_of_le (Nat.two_pow_pos 52) hle))).2 hle

/-- A quotient is known up to its last bit, at an exponent that leaves it 53 bits. -/
theorem describes_quotient (h₁ : 0 < m₁) (h₂ : 0 < m₂)
    (hv : v = (m₁ * 2 ^ e₁) / (m₂ * 2 ^ e₂)) :
    ∃ n t acc, divCore .binary64 m₁ e₁ m₂ e₂ = (n, t, acc) ∧
      Describes (.ofMantissaAndAccuracy n acc) (v / 2 ^ t) ∧
      t ≤ max (n.log2 + 1 + t - 53) (-1074) := by
  let t : Int := min (e₁ - e₂) (max ((m₁.log2 : Int) + 1 + e₁ - (m₂.log2 + 1 + e₂) - 53) (-1074))
  let k := (e₁ - e₂ - t).toNat
  have hk : t + (k : Int) = e₁ - e₂ := by omega
  refine ⟨m₁ <<< k / m₂, t, accuracyOfFraction (m₁ <<< k % m₂) m₂, rfl, ?_, ?_⟩
  · have hexact : v / 2 ^ t = ((m₁ <<< k : Nat) : ℚ) / m₂ := by
      have hm₂ : (m₂ : ℚ) ≠ 0 := Nat.cast_ne_zero.2 h₂.ne'
      have hp : (2 : ℚ) ^ e₁ = 2 ^ t * 2 ^ k * 2 ^ e₂ := by
        rw [← zpow_natCast, ← zpow_add₀ two_ne_zero, hk, ← zpow_add₀ two_ne_zero, sub_add_cancel]
      rw [hv, hp, Nat.shiftLeft_eq, Nat.cast_mul, Nat.cast_pow, Nat.cast_ofNat]
      field_simp
    rw [hexact]
    exact describes_div _ h₂
  · rcases Int.lt_or_le (-1074) t with ht | ht
    · have hlog := le_log2_quotient h₁ h₂ (k := k) (by omega)
      omega
    · exact ht.trans (le_max_right _ _)

theorem div_eq (hfits : Fits (.finite .positive m e hm)) (hcell : Cell m e v)
    (hv : v = (m₁ * 2 ^ e₁) / (m₂ * 2 ^ e₂)) :
    div .binary64 (.finite .positive m₁ e₁ h₁) (.finite .positive m₂ e₂ h₂) =
      .finite .positive m e hm := by
  obtain ⟨n, t, acc, hcore, hd, hle⟩ := describes_quotient h₁ h₂ hv
  simp only [div, hcore]
  exact roundWithAccuracy_eq hm hd hle hfits hcell

/-- A cell lies between one half of the least double and the first power of two that is none. -/
theorem Cell.bounds (hfits : Fits (.finite .positive m e hm)) (hcell : Cell m e v) :
    2 ^ (-1075 : Int) ≤ v ∧ v < 2 ^ (1024 : Int) := by
  obtain ⟨hmlt, he, he', -⟩ := hfits
  have hp : (0 : ℚ) < 2 ^ (e - 2) := zpow_pos two_pos _
  have hl : ((2 ^ 1 : Nat) : ℚ) ≤ lowEnd m e := by
    refine Nat.cast_le.2 ?_
    have h := (lowEnd_mem m e).1
    omega
  have hh : ((4 * m + 2 : Nat) : ℚ) < (2 ^ 55 : Nat) := Nat.cast_lt.2 (by omega)
  push_cast at hl hh
  constructor
  · calc (2 : ℚ) ^ (-1075 : Int) ≤ 2 ^ (e - 1) := zpow_le_zpow_right₀ one_le_two (by omega)
      _ = 2 ^ 1 * 2 ^ (e - 2) := two_zpow_eq 1 (by omega)
      _ ≤ lowEnd m e * 2 ^ (e - 2) := mul_le_mul_of_nonneg_right hl hp.le
      _ ≤ v := hcell.low
  · calc v ≤ (4 * m + 2 : Nat) * 2 ^ (e - 2) := hcell.high
      _ < 2 ^ 55 * 2 ^ (e - 2) := mul_lt_mul_of_pos_right (by exact_mod_cast hh) hp
      _ = 2 ^ (e + 53) := (two_zpow_eq 55 (by omega)).symm
      _ ≤ 2 ^ (1024 : Int) := zpow_le_zpow_right₀ one_le_two (by omega)

end

/-- The number that a decimal stands for. -/
def Decimal.value (d : Decimal) : ℚ := d.digits * 10 ^ d.exponent

section

variable {d : Decimal} {m : Nat} {e : Int} {hm : 0 < m}

private theorem two_zpow_le_ten_zpow : (2 : ℚ) ^ (1203 : Int) ≤ 10 ^ (401 : Int) := by
  calc (2 : ℚ) ^ (1203 : Int) = (2 ^ 3) ^ (401 : Int) := by rw [← zpow_natCast, ← zpow_mul]; rfl
    _ ≤ 10 ^ (401 : Int) := zpow_le_zpow_left₀ (by norm_num) (by norm_num) (by norm_num)

/-- A decimal in a cell has digits, and its exponent is neither too large nor too small for them. -/
theorem Cell.decimal_bounds (hfits : Fits (.finite .positive m e hm)) (hcell : Cell m e d.value) :
    0 < d.digits ∧ d.exponent ≤ 400 ∧ -400 ≤ d.exponent + d.digits.log2 := by
  obtain ⟨hlow, hhigh⟩ := hcell.bounds hfits
  have hp : (0 : ℚ) < 10 ^ d.exponent := zpow_pos (by norm_num) _
  have hpos : 0 < d.digits := by
    refine Nat.pos_of_ne_zero fun h0 => ?_
    rw [Decimal.value, h0, Nat.cast_zero, zero_mul] at hlow
    exact absurd hlow (not_le.2 (zpow_pos two_pos _))
  refine ⟨hpos, ?_, ?_⟩
  · by_contra hlt
    have hone : (1 : ℚ) ≤ d.digits := by exact_mod_cast hpos
    have h : (2 : ℚ) ^ (1203 : Int) < 2 ^ (1024 : Int) :=
      calc (2 : ℚ) ^ (1203 : Int) ≤ 10 ^ (401 : Int) := two_zpow_le_ten_zpow
        _ ≤ 10 ^ d.exponent := zpow_le_zpow_right₀ (by norm_num) (by omega)
        _ ≤ d.digits * 10 ^ d.exponent := le_mul_of_one_le_left hp.le hone
        _ < 2 ^ (1024 : Int) := hhigh
    rw [zpow_lt_zpow_iff_right₀ one_lt_two] at h
    omega
  · by_contra hlt
    have hlog : (d.digits : ℚ) ≤ 2 * 10 ^ d.digits.log2 := by
      have h : d.digits ≤ 2 * 10 ^ d.digits.log2 :=
        calc d.digits ≤ 2 ^ (d.digits.log2 + 1) := Nat.lt_log2_self.le
          _ = 2 * 2 ^ d.digits.log2 := by rw [Nat.pow_succ, Nat.mul_comm]
          _ ≤ 2 * 10 ^ d.digits.log2 :=
            Nat.mul_le_mul_left _ (Nat.pow_le_pow_left (by decide) _)
      exact_mod_cast h
    have h : (2 : ℚ) ^ (-1075 : Int) ≤ 2 ^ (-1202 : Int) :=
      calc (2 : ℚ) ^ (-1075 : Int) ≤ d.digits * 10 ^ d.exponent := hlow
        _ ≤ 2 * 10 ^ d.digits.log2 * 10 ^ d.exponent := mul_le_mul_of_nonneg_right hlog hp.le
        _ = 2 * 10 ^ (d.exponent + d.digits.log2) := by
          rw [zpow_add₀ (by norm_num), zpow_natCast]
          ring
        _ ≤ 2 * 10 ^ (-401 : Int) :=
          mul_le_mul_of_nonneg_left (zpow_le_zpow_right₀ (by norm_num) (by omega)) two_pos.le
        _ ≤ 2 * 2 ^ (-1203 : Int) := by
          rw [zpow_neg, zpow_neg]
          have hinv := inv_anti₀ (zpow_pos two_pos _) two_zpow_le_ten_zpow
          exact mul_le_mul_of_nonneg_left hinv two_pos.le
        _ = 2 ^ (-1202 : Int) := by rw [← zpow_one_add₀ two_ne_zero]; rfl
    rw [zpow_le_zpow_iff_right₀ one_lt_two] at h
    omega

private theorem le_log2 {k n : Nat} (h : 2 ^ k ≤ n) : k ≤ n.log2 :=
  (Nat.le_log2 (Nat.ne_of_gt (Nat.lt_of_lt_of_le (Nat.two_pow_pos k) h))).2 h

private theorem model_ofScientific_eq (hfits : Fits (.finite .positive m e hm))
    (hcell : Cell m e d.value) :
    UnpackedFloat.ofScientific .binary64 d.digits d.exponent = .finite .positive m e hm := by
  obtain ⟨hpos, hbig, hsmall⟩ := hcell.decimal_bounds hfits
  have hexp : (2 : Int) ^ Format.binary64.exponentBits = 2048 := rfl
  rw [UnpackedFloat.ofScientific, dif_neg hpos.ne', if_neg (by omega), if_neg (by omega)]
  split
  · next hexp0 =>
    refine mul_eq hfits hcell ?_ ?_
    · have hexp' : d.exponent = (d.exponent.toNat : Int) := by omega
      have hcancel : (2 : ℚ) ^ Format.binary64.mantissaBits *
          2 ^ (-(Format.binary64.mantissaBits : Int)) = 1 := by
        rw [← zpow_natCast, ← zpow_add₀ two_ne_zero, add_neg_cancel, zpow_zero]
      rw [Decimal.value, hexp', zpow_natCast, Int.toNat_natCast, Nat.shiftLeft_eq, Nat.cast_mul,
        Nat.cast_pow, Nat.cast_ofNat, mul_assoc (d.digits : ℚ), hcancel]
      push_cast
      ring
    · have hten : 0 < 10 ^ d.exponent.toNat := Nat.pow_pos (by decide)
      have hle : 2 ^ 52 ≤ d.digits <<< Format.binary64.mantissaBits * 10 ^ d.exponent.toNat := by
        rw [Nat.shiftLeft_eq, show Format.binary64.mantissaBits = 53 from rfl]
        calc 2 ^ 52 ≤ 1 * 2 ^ 53 * 1 := by decide
          _ ≤ d.digits * 2 ^ 53 * 10 ^ d.exponent.toNat :=
            Nat.mul_le_mul (Nat.mul_le_mul_right _ hpos) hten
      exact le_log2 hle
  · next hexp0 =>
    refine div_eq hfits hcell ?_
    have hexp' : d.exponent = -((-d.exponent).toNat : Int) := by omega
    rw [Decimal.value, hexp', zpow_neg, zpow_natCast, neg_neg, Int.toNat_natCast]
    push_cast
    ring

/-- Whether a form is the power of ten. -/
private def isPowerOfTen (k : Nat) : UnpackedFloat → Bool
  | .finite .positive p g _ => p * 2 ^ g.toNat == 10 ^ k * 2 ^ (-g).toNat
  | _ => false

private theorem isPowerOfTen_table : ∀ k : Fin 23,
    isPowerOfTen k (form (Float.exactlyRepresentablePowersOfTen[k])) := by
  decide +kernel

private theorem power_form {k : Nat} (hk : k < Float.exactlyRepresentablePowersOfTen.size) :
    ∃ p g hp, form Float.exactlyRepresentablePowersOfTen[k] = .finite .positive p g hp ∧
      (p : ℚ) * 2 ^ g = 10 ^ k := by
  have h := isPowerOfTen_table ⟨k, hk⟩
  change isPowerOfTen k (form Float.exactlyRepresentablePowersOfTen[k]) at h
  generalize form Float.exactlyRepresentablePowersOfTen[k] = u at h ⊢
  cases u with
  | finite s p g hp =>
    cases s with
    | negative => exact nomatch h
    | positive =>
      refine ⟨p, g, hp, rfl, ?_⟩
      have hnat : p * 2 ^ g.toNat = 10 ^ k * 2 ^ (-g).toNat := beq_iff_eq.1 h
      have hrat : (p : ℚ) * 2 ^ g.toNat = 10 ^ k * 2 ^ (-g).toNat := by exact_mod_cast hnat
      have hg : g = (g.toNat : Int) - ((-g).toNat : Int) := by omega
      rw [hg, zpow_sub₀ two_ne_zero, zpow_natCast, zpow_natCast, mul_div_assoc', hrat,
        mul_div_assoc, div_self (by positivity), mul_one]
  | _ => exact nomatch h

theorem toFloat_form {n : Nat} (hn : 0 < n) (hlt : n < 2 ^ 53) :
    ∃ p g hp, form n.toUInt64.toFloat = .finite .positive p g hp ∧ 4503599627370496 ≤ p ∧
      (p : ℚ) * 2 ^ g = n := by
  obtain ⟨k, hk, hnorm, hfits⟩ := normalize_exact hn hlt (show (-1074 : Int) ≤ 0 by decide)
    (by decide) .positive
  have hn64 : n.toUInt64.toNat = n := by
    rw [UInt64.toNat_ofNat']
    omega
  have hform : form n.toUInt64.toFloat =
      form (ofForm (UnpackedFloat.normalize .binary64 n.toUInt64.toNat 0 .positive)) := rfl
  rw [hn64, hnorm, form_ofForm hfits] at hform
  refine ⟨_, _, _, hform, ?_, ?_⟩
  · obtain ⟨hbits, -, -, htop⟩ := hfits
    refine htop.resolve_right fun hlow => ?_
    have hk' : n <<< k ≥ 2 ^ k := by
      rw [Nat.shiftLeft_eq]
      exact Nat.le_mul_of_pos_left _ hn
    have hpow : 2 ^ 53 ≤ 2 ^ k := Nat.pow_le_pow_right Nat.two_pos (by omega)
    omega
  · rw [Nat.shiftLeft_eq, Nat.cast_mul, Nat.cast_pow, Nat.cast_ofNat, mul_assoc, zero_sub,
      ← zpow_natCast, ← zpow_add₀ two_ne_zero, add_neg_cancel, zpow_zero, mul_one]

theorem ofScientific_eq (hfits : Fits (.finite .positive m e hm)) (hcell : Cell m e d.value) :
    form (Float.ofScientific d.digits (d.exponent < 0) d.exponent.natAbs) =
      .finite .positive m e hm := by
  obtain ⟨hpos, -, -⟩ := hcell.decimal_bounds hfits
  rw [Float.ofScientific]
  split
  · next hfast =>
    obtain ⟨p, g, hp, hx, hbig, hpn⟩ := toFloat_form hpos hfast.1
    have hk : d.exponent.natAbs < Float.exactlyRepresentablePowersOfTen.size :=
      show d.exponent.natAbs < 23 by omega
    obtain ⟨q, h, hq, hy, hqn⟩ := power_form hk
    split
    · next hneg =>
      have hneg' := of_decide_eq_true hneg
      change form (ofForm (div .binary64 (form d.digits.toUInt64.toFloat)
        (form Float.exactlyRepresentablePowersOfTen[d.exponent.natAbs]))) = _
      rw [hx, hy, div_eq hfits hcell, form_ofForm hfits]
      rw [hpn, hqn, Decimal.value, show d.exponent = -(d.exponent.natAbs : Int) by omega,
        zpow_neg, zpow_natCast, Int.natAbs_neg, Int.natAbs_natCast, div_eq_mul_inv]
    · next hneg =>
      have hneg' := mt decide_eq_true hneg
      change form (ofForm (mul .binary64 (form d.digits.toUInt64.toFloat)
        (form Float.exactlyRepresentablePowersOfTen[d.exponent.natAbs]))) = _
      rw [hx, hy, mul_eq hfits hcell, form_ofForm hfits]
      · rw [hpn, hqn, Decimal.value, show d.exponent = (d.exponent.natAbs : Int) by omega,
          zpow_natCast, Int.natAbs_natCast]
      · exact le_log2 (Nat.le_trans hbig (Nat.le_mul_of_pos_right p hq))
  · have hexp : (if decide (d.exponent < 0) = true then Int.negOfNat d.exponent.natAbs
        else Int.ofNat d.exponent.natAbs) = d.exponent := by
      rcases Int.lt_or_le d.exponent 0 with hneg | hneg
      · rw [if_pos (decide_eq_true hneg), Int.negOfNat_eq, Int.ofNat_eq_natCast]
        omega
      · rw [if_neg (by simpa using hneg)]
        exact Int.natAbs_of_nonneg hneg
    simp only [hexp]
    change form (ofForm (UnpackedFloat.ofScientific .binary64 d.digits d.exponent)) = _
    rw [model_ofScientific_eq hfits hcell, form_ofForm hfits]

/-- A decimal is read as the double in whose cell it lies. -/
theorem ofDecimal_eq (hfits : Fits (.finite .positive m e hm)) (hcell : Cell m e d.value)
    (negative : Bool) : form (ofDecimal negative d.digits d.exponent) =
      .finite (if negative then .negative else .positive) m e hm := by
  obtain ⟨hpos, hbig, hsmall⟩ := hcell.decimal_bounds hfits
  have hsize : ofDecimal false d.digits d.exponent =
      Float.ofScientific d.digits (d.exponent < 0) d.exponent.natAbs := by
    simp only [ofDecimal,
      if_neg (show ¬ (d.digits = 0 ∨ d.exponent + d.digits.log2 < -400) by omega),
      if_neg (show ¬ 400 < d.exponent by omega)]
    rfl
  have hform := ofScientific_eq hfits hcell
  rw [← hsize] at hform
  cases negative with
  | false => exact hform
  | true =>
    change form (ofForm (form (ofDecimal false d.digits d.exponent)).neg) = _
    rw [hform]
    exact form_ofForm (u := .finite .negative m e hm) hfits

end

/-- Below `2 ^ 53` a natural number is a double. -/
theorem form_ofNat {n : Nat} (hn : 0 < n) (hlt : n < 9007199254740992) :
    ∃ p g hp, form (Float.ofNat n) = .finite .positive p g hp ∧ (p : ℚ) * 2 ^ g = n := by
  obtain ⟨p, g, hp, hx, -, hpn⟩ := toFloat_form hn hlt
  have hfits : Fits (.finite .positive p g hp) := hx ▸ fits_form _
  have hcell : Cell p g (Decimal.value ⟨n, 0⟩) := cell_self hp (by
    rw [hpn, Decimal.value, zpow_zero, mul_one])
  have hform := ofScientific_eq hfits hcell
  simp only [Int.natAbs_zero, lt_irrefl, decide_false] at hform
  exact ⟨p, g, hp, hform, hpn⟩

/-- From there on it is rounded, after it was shifted to have bits enough. -/
theorem ofNat_of_le {n : Nat} (h : 9007199254740992 ≤ n) :
    Float.ofNat n = ofForm (roundWithAccuracy .binary64 .positive (n <<< 53) (-53) .exact) := by
  have hslow : Float.ofNat n = ofForm (UnpackedFloat.ofScientific .binary64 n 0) := by
    change Float.ofScientific n false 0 = _
    rw [Float.ofScientific, dif_neg (by omega)]
    rfl
  rw [hslow, UnpackedFloat.ofScientific, dif_neg (by omega), if_neg (by decide),
    if_neg (by rw [show (2 : Int) ^ Format.binary64.exponentBits = 2048 from rfl]; omega),
    if_pos (by decide)]
  change ofForm (roundWithAccuracy .binary64 .positive (n <<< 53 * 1) (-53) .exact) = _
  rw [Nat.mul_one]

/-- Integers of 64 bits have a finite double next to them. -/
theorem isFinite_ofNat {n : Nat} (h : n < 18446744073709551616) : (Float.ofNat n).isFinite := by
  change (form (Float.ofNat n)).isFinite
  rcases Nat.eq_zero_or_pos n with rfl | hpos
  · decide
  · rcases Nat.lt_or_ge n 9007199254740992 with hlt | hge
    · obtain ⟨p, g, hp, hform, -⟩ := form_ofNat hpos hlt
      rw [hform]
      rfl
    · have hlog : n.log2 < 64 := (Nat.log2_lt hpos.ne').2 h
      have hbits : (n <<< 53).log2 = n.log2 + 53 := log2_shiftLeft hpos 53
      have hd : Describes (.ofMantissaAndAccuracy (n <<< 53) .exact)
          ((n <<< 53 : Nat) * 2 ^ (-53 : Int) / 2 ^ (-53 : Int)) := by
        rw [mul_div_cancel_right₀ _ (zpow_ne_zero _ two_ne_zero)]
        exact describes_natCast _
      rw [ofNat_of_le hge]
      refine isFinite_roundWithAccuracy hd ?_ ?_ <;> omega

theorem isFinite_neg {x : Float} (h : x.isFinite) : (-x).isFinite := by
  change (form x).isFinite at h
  change (form (-x)).isFinite
  rw [form_neg]
  generalize form x = u at h
  cases u with
  | notANumber | infinity => exact nomatch h
  | zero | finite => rfl

end MotionTemplate.Number
