import MotionTemplate.Proofs.Double.Monotone

/-! Whole numbers as doubles: which of them are exact, the least one that is not below a double, and
their quotients by one divisor, which stay apart as long as the numbers have a bit to spare. -/
namespace MotionTemplate.Number
open Float.Model (UnpackedFloat Format totalExponent)
open Float.Model.UnpackedFloat

section

variable {m n : Nat}

theorem amount_ofNat (h : n < 9007199254740992) : amount (form (Float.ofNat n)) = n := by
  rcases Nat.eq_zero_or_pos n with rfl | hpos
  · rw [Nat.cast_zero, show form (Float.ofNat 0) = .zero .positive from rfl, amount_zero]
  · obtain ⟨p, g, hp, hform, hpn⟩ := form_ofNat hpos h
    rw [hform]
    exact hpn

theorem rounds_ofNat (n : Nat) : ∃ u, Rounds n u ∧ Float.ofNat n = ofForm u := by
  rcases Nat.lt_or_ge n 9007199254740992 with h | h
  · have hr := rounds_self (trim_form (isFinite_ofNat (h.trans (by decide))))
    rw [amount_ofNat h] at hr
    exact ⟨_, hr, (ofForm_form _).symm⟩
  · have hexact : (n : ℚ) / (2 : ℚ) ^ (-53 : Int) = (n <<< 53 : Nat) := by
      rw [Nat.shiftLeft_eq, Nat.cast_mul, zpow_neg, div_inv_eq_mul]
      norm_num
    have hd : Describes (.ofMantissaAndAccuracy (n <<< 53) .exact) ((n : ℚ) / 2 ^ (-53 : Int)) := by
      rw [hexact]
      exact describes_natCast _
    have hbits : (n <<< 53).log2 = n.log2 + 53 := log2_shiftLeft (by omega) 53
    exact ⟨_, rounds_roundWithAccuracy hd (by omega) .positive, ofNat_of_le h⟩

/-- Whole numbers have doubles in their order. -/
theorem ofNat_le_ofNat (h : m ≤ n) : Float.ofNat m ≤ Float.ofNat n := by
  obtain ⟨u, hu, hmu⟩ := rounds_ofNat m
  obtain ⟨v, hv, hnv⟩ := rounds_ofNat n
  rw [hmu, hnv]
  exact hu.ofForm_le hv (Nat.cast_le.2 h)

theorem one_le_ofNat (h : 0 < n) : 1 ≤ Float.ofNat n := ofNat_le_ofNat (m := 1) h

theorem isFinite_toFloat {w : UInt64} (h : w.toNat < 9007199254740992) :
    w.toFloat.isFinite ∧ amount (form w.toFloat) = w.toNat := by
  change (form w.toFloat).isFinite ∧ _
  rcases Nat.eq_zero_or_pos w.toNat with h0 | hpos
  · obtain rfl : w = 0 := UInt64.toNat_inj.1 h0
    exact ⟨rfl, rfl⟩
  · obtain ⟨p, g, hp, hform, -, hpn⟩ := toFloat_form hpos h
    rw [show w.toNat.toUInt64 = w by simp] at hform
    rw [hform]
    exact ⟨rfl, hpn⟩

end

section

variable {x : Float} {m : Nat} {e : Int} {hm : 0 < m}

/-- Cutting off the fraction of a positive number leaves its floor. -/
private theorem roundToInt_eq_floor (m : Nat) (e : Int) :
    roundToInt .positive m e = (⌊(m : ℚ) * 2 ^ e⌋₊ : Int) := by
  -- a mantissa at an exponent above zero is shifted up, one at an exponent below it down
  let a := m <<< (e - 0).toNat
  let k := (0 - (e - (e - 0).toNat)).toNat
  have hvalue : (m : ℚ) * 2 ^ e = (a : ℚ) / 2 ^ k := by
    have hp : (2 : ℚ) ^ e * 2 ^ k = 2 ^ (e - 0).toNat := by
      rw [← zpow_natCast, ← zpow_natCast, ← zpow_add₀ two_ne_zero]
      congr 1
      omega
    rw [eq_div_iff (pow_ne_zero _ two_ne_zero), mul_assoc, hp]
    simp only [a, Nat.shiftLeft_eq, Nat.cast_mul, Nat.cast_pow, Nat.cast_ofNat]
  have hd := (describes_shiftRight (describes_natCast a) k).floor
  rw [← hvalue] at hd
  have hfloor := (Nat.floor_eq_iff (by positivity)).2 hd
  change Sign.apply .positive _ = _
  rw [hfloor]
  rfl

private theorem toNat_ofNatClamp (n : Nat) :
    (UInt64.ofNatClamp n).toNat = min n 18446744073709551615 := by
  rw [UInt64.ofNatClamp]
  split
  · next h =>
    rw [UInt64.toNat_ofNatLT]
    have : n < 18446744073709551616 := h
    omega
  · next h =>
    rw [UInt64.toNat_ofNatLT]
    have : ¬ n < 18446744073709551616 := h
    change 18446744073709551615 = _
    omega

private theorem toNat_toUInt64 (hx : form x = .finite .positive m e hm) :
    x.toUInt64.toNat = min ⌊amount (form x)⌋₊ 18446744073709551615 := by
  have hcut : x.toUInt64 = UInt64.ofNatClamp (roundToInt .positive m e).toNat := by
    change UInt64.ofNatClamp (toInt 0 (UInt64.size - 1) (form x)).toNat = _
    rw [hx]
    rfl
  rw [hcut, toNat_ofNatClamp, roundToInt_eq_floor, hx]
  rfl

private theorem toUInt64_of_not_pos (h : ¬ 0 < x) : x.toUInt64 = 0 := by
  have hfits := fits_form x
  rw [pos_iff, position] at h
  change ¬ ((form x).isNaN = false ∧ _) at h
  change UInt64.ofNatClamp (toInt 0 (UInt64.size - 1) (form x)).toNat = 0
  generalize form x = u at h hfits
  cases u with
  | notANumber | zero => rfl
  | infinity s =>
    cases s with
    | negative => rfl
    | positive => exact absurd ⟨rfl, by decide⟩ h
  | finite s m e hm =>
    cases s with
    | negative =>
      have hcut : toInt 0 (UInt64.size - 1) (.finite .negative m e hm) ≤ 0 :=
        Int.neg_nonpos_of_nonneg (Int.natCast_nonneg _)
      rw [Int.toNat_of_nonpos hcut]
      rfl
    | positive =>
      obtain ⟨-, he, -, -⟩ := hfits
      refine absurd ⟨rfl, ?_⟩ h
      simp only [place, Sign.apply]
      omega

private theorem ceilCount_of_not_pos (h : ¬ 0 < x) : ceilCount x = 0 := by
  have hnot : ¬ ((0 : UInt64).toFloat < x ∧ x < 9007199254740992.0) := fun hlt => h hlt.1
  simp only [ceilCount, toUInt64_of_not_pos h]
  exact if_neg hnot

private theorem amount_limit : amount (form (9007199254740992.0 : Float)) = 9007199254740992 := by
  have hform : form (9007199254740992.0 : Float) =
      .finite .positive 4503599627370496 1 (by decide) := rfl
  rw [hform, amount, withSign]
  norm_num

/-- For a number of up to 53 bits the count is its ceiling. -/
theorem toNat_ceilCount (hpos : 0 < x) (hf : x.isFinite) (h : amount (form x) < 9007199254740992) :
    (ceilCount x).toNat = ⌈amount (form x)⌉₊ := by
  obtain ⟨m, e, hm, hx⟩ := finite_form_of_pos hf hpos
  have hnonneg : 0 ≤ amount (form x) := by
    rw [hx, amount, withSign]
    positivity
  have hfloor := Nat.floor_le hnonneg
  have hsmall : ⌊amount (form x)⌋₊ < 9007199254740992 := (Nat.floor_lt hnonneg).2 h
  have hwhole : x.toUInt64.toNat = ⌊amount (form x)⌋₊ := by
    rw [toNat_toUInt64 hx]
    omega
  obtain ⟨hwf, hwa⟩ := isFinite_toFloat (hwhole ▸ hsmall)
  have hlimit : x < 9007199254740992.0 := by
    rw [lt_iff_amount hf (by decide), amount_limit]
    exact h
  have hrest : x.toUInt64.toFloat < x ↔ (⌊amount (form x)⌋₊ : ℚ) < amount (form x) := by
    rw [lt_iff_amount hwf hf, hwa, hwhole]
  simp only [ceilCount, hlimit, and_true, hrest]
  split
  · next hlt =>
    have hsucc : (x.toUInt64 + 1).toNat = ⌊amount (form x)⌋₊ + 1 := by
      rw [UInt64.toNat_add, hwhole, UInt64.toNat_one]
      omega
    rw [hsucc, eq_comm, Nat.ceil_eq_iff (Nat.succ_ne_zero _), Nat.succ_sub_one, Nat.cast_succ]
    exact ⟨hlt, (Nat.lt_floor_add_one _).le⟩
  · next hle =>
    have heq : amount (form x) = ⌊amount (form x)⌋₊ := le_antisymm (not_lt.1 hle) hfloor
    rw [hwhole]
    conv_rhs => rw [heq, Nat.ceil_natCast]

/-- Larger numbers have no fraction, so they are only cut off at 64 bits. -/
private theorem le_ceilCount (h : 9007199254740992.0 ≤ x) :
    9007199254740992 ≤ (ceilCount x).toNat := by
  have hnot : ¬ (x.toUInt64.toFloat < x ∧ x < 9007199254740992.0) :=
    fun hlt => not_lt_of_le h hlt.2
  have hpos : 0 < x := Number.lt_of_lt_of_le (by decide) h
  rw [ceilCount, if_neg hnot]
  obtain hf | hinf := finite_or_infinite_of_pos hpos
  · obtain ⟨m, e, hm, hx⟩ := finite_form_of_pos hf hpos
    have hle := (le_iff_amount (by decide) hf).1 h
    rw [amount_limit] at hle
    have hfloor : 9007199254740992 ≤ ⌊amount (form x)⌋₊ := Nat.le_floor hle
    rw [toNat_toUInt64 hx]
    omega
  · have hcut : x.toUInt64 = UInt64.ofNatClamp (toInt 0 (UInt64.size - 1) (form x)).toNat := rfl
    rw [hcut, hinf]
    decide

/-- The count of what lies below a double, for numbers of up to 53 bits. -/
theorem lt_ceilCount_iff {k : Nat} (hk : k < 9007199254740992) :
    k < (ceilCount x).toNat ↔ Float.ofNat k < x := by
  have hkf : (Float.ofNat k).isFinite := isFinite_ofNat (by omega)
  by_cases hpos : 0 < x
  · rcases lt_or_le (pos_iff.1 hpos).1 (show (9007199254740992.0 : Float).isNaN = false from rfl)
      with hlt | hle
    · have hf : x.isFinite := isFinite_of_le (le_of_lt hpos) (le_of_lt hlt) (by decide)
      rw [lt_iff_amount hf (by decide), amount_limit] at hlt
      rw [toNat_ceilCount hpos hf hlt, Nat.lt_ceil, lt_iff_amount hkf hf, amount_ofNat hk]
    · refine iff_of_true (hk.trans_le (le_ceilCount hle)) (Number.lt_of_lt_of_le ?_ hle)
      rw [lt_iff_amount hkf (by decide), amount_ofNat hk, amount_limit]
      exact_mod_cast hk
  · rw [ceilCount_of_not_pos hpos]
    refine iff_of_false (Nat.not_lt_zero k) fun hlt => hpos ?_
    exact Number.lt_of_le_of_lt (ofNat_le_ofNat (m := 0) (Nat.zero_le k)) hlt

end

section

variable {v w c : ℚ} {r q : Nat} {t u : Int}

/-- Rounding moves a number by no more than half a place. -/
private theorem Nearest.near (h : Nearest v r t) :
    r * 2 ^ t ≤ v + 2 ^ t / 2 ∧ v ≤ r * 2 ^ t + 2 ^ t / 2 := by
  have hp : (0 : ℚ) < 2 ^ t := zpow_pos two_pos _
  have hlow := h.rounds.low
  have hhigh := h.rounds.high
  rw [le_div_iff₀ hp] at hlow
  rw [div_le_iff₀ hp] at hhigh
  constructor <;> linarith

/-- Up to `2 ^ 52` steps from zero the places are closer together than the steps. -/
private theorem Nearest.place_lt (h : Nearest v r t) (hc : 2 ^ (-1074 : Int) < c)
    (hv : v < 2 ^ (52 : Int) * c) : (2 : ℚ) ^ t < c := by
  obtain rfl | hfull := h.full
  · exact hc
  · rw [zpow_add₀ two_ne_zero, mul_comm] at hfull
    exact lt_of_mul_lt_mul_left (hfull.trans_lt hv) (by positivity)

/-- Numbers that are a step apart stay apart when they are rounded. -/
private theorem RoundedTo.lt {p p' : ℚ} (hv : RoundedTo v p) (hw : RoundedTo w p') (h0 : 0 ≤ v)
    (hc : 2 ^ (-1074 : Int) < c) (hstep : v + c ≤ w) (hbits : w < 2 ^ (52 : Int) * c) :
    p < p' := by
  obtain ⟨s, x, r, t, hx, rfl, rfl⟩ := hv
  obtain ⟨s', y, q, u, hy, rfl, rfl⟩ := hw
  have hc0 : 0 < c := lt_trans (by positivity) hc
  have hx0 := hx.nonneg
  have hy0 := hy.nonneg
  cases s' with
  | negative =>
    rw [withSign] at hstep
    linarith
  | positive =>
    rw [withSign] at hstep hbits ⊢
    have hu := hy.place_lt hc hbits
    have hnear := hy.near.2
    cases s with
    | negative =>
      have hr : (0 : ℚ) ≤ r * 2 ^ t := by positivity
      rw [withSign] at h0 hstep ⊢
      linarith
    | positive =>
      rw [withSign] at hstep ⊢
      have ht := hx.place_lt hc (by linarith)
      have hnear' := hx.near.1
      linarith

end

section

variable {x y z : Float}

private theorem mul_cases (u v : UnpackedFloat) :
    mul .binary64 u v = .notANumber ∨ (∃ s, mul .binary64 u v = .infinity s) ∨
      (u.isFinite ∧ v.isFinite) := by
  cases u <;> cases v <;> first
    | exact .inr (.inr ⟨rfl, rfl⟩)
    | exact .inl rfl
    | exact .inr (.inl ⟨_, rfl⟩)

/-- A finite product has finite factors. -/
theorem isFinite_of_mul (h : (x * y).isFinite) : x.isFinite ∧ y.isFinite := by
  have hmul : form (x * y) = form (ofForm (mul .binary64 (form x) (form y))) := rfl
  change (form (x * y)).isFinite at h
  change (form x).isFinite ∧ (form y).isFinite
  rw [hmul] at h
  obtain heq | ⟨s, heq⟩ | hfinite := mul_cases (form x) (form y)
  · rw [heq] at h
    exact absurd h (by decide)
  · rw [heq, form_ofForm (show Fits (.infinity s) from trivial)] at h
    exact nomatch h
  · exact hfinite

theorem amount_one : amount (form (1 : Float)) = 1 := by
  rw [form_one, amount, withSign]
  norm_num

private theorem one_le_amount (hz : 1 ≤ z) (hf : z.isFinite) : 1 ≤ amount (form z) := by
  have hle := (le_iff_amount (by decide) hf).1 hz
  rwa [amount_one] at hle

private theorem amount_lt_two_zpow (hf : z.isFinite) : amount (form z) < 2 ^ (1024 : Int) := by
  have hfits := fits_form z
  change (form z).isFinite at hf
  generalize form z = u at hf hfits
  have hpow : (0 : ℚ) < 2 ^ (1024 : Int) := by positivity
  cases u with
  | notANumber | infinity => exact nomatch hf
  | zero => exact hpow
  | finite s m e hm =>
    obtain ⟨hlt, -, he, -⟩ := hfits
    have hsize : (m : ℚ) * 2 ^ e < 2 ^ (1024 : Int) :=
      calc (m : ℚ) * 2 ^ e < (9007199254740992 : Nat) * 2 ^ e :=
            mul_lt_mul_of_pos_right (Nat.cast_lt.2 hlt) (zpow_pos two_pos _)
        _ = 2 ^ (e + 53) := (two_zpow_add_53 e).symm
        _ ≤ 2 ^ (1024 : Int) := zpow_le_zpow_right₀ one_le_two (by omega)
    have hnonneg : (0 : ℚ) ≤ m * 2 ^ e := by positivity
    cases s with
    | positive => exact hsize
    | negative =>
      exact (neg_nonpos.2 hnonneg).trans_lt hpow

section

variable (hz : 1 ≤ z) (hf : z.isFinite)
include hz hf

/-- A quotient by a divisor of at least one, rounded. -/
private theorem rounds_quotient (hx : x.isFinite) :
    ∃ u, Rounds (amount (form x) / amount (form z)) u ∧ x / z = ofForm u := by
  have hpos : 0 < z := Number.lt_of_lt_of_le (by decide) hz
  obtain ⟨n, f, hn, hzf⟩ := finite_form_of_pos hf hpos
  rw [div_eq_ofForm hzf, hzf]
  exact ⟨_, rounds_div (trim_form hx) hn f, rfl⟩

private theorem isFinite_div (hx : x.isFinite) (hx0 : 0 ≤ x) : (x / z).isFinite := by
  obtain ⟨u, hu, heq⟩ := rounds_quotient hz hf hx
  have hone := one_le_amount hz hf
  have ha : 0 ≤ amount (form x) := (le_iff_amount (by decide) hx).1 hx0
  have hlow : 0 ≤ x / z := by
    rw [heq]
    exact (rounds_zero .positive).ofForm_le hu (by positivity)
  have hhigh : x / z ≤ x := by
    have hself := hu.ofForm_le (rounds_self (trim_form hx)) (div_le_self ha hone)
    rwa [← heq, ofForm_form] at hself
  exact isFinite_of_le hlow hhigh hx

/-- Up to `2 ^ 52` the quotients of whole numbers by one divisor are apart. -/
theorem ofNat_div_lt {k l : Nat} (hkl : k < l) (hl : l < 4503599627370496) :
    Float.ofNat k / z < Float.ofNat l / z := by
  have hone := one_le_amount hz hf
  have hpos : 0 < amount (form z) := by linarith
  have hkf : (Float.ofNat k).isFinite := isFinite_ofNat (by omega)
  have hlf : (Float.ofNat l).isFinite := isFinite_ofNat (by omega)
  obtain ⟨u, hu, hueq⟩ := rounds_quotient hz hf hkf
  obtain ⟨v, hv, hveq⟩ := rounds_quotient hz hf hlf
  rw [amount_ofNat (by omega)] at hu hv
  have hstep : (k : ℚ) / amount (form z) + 1 / amount (form z) ≤ l / amount (form z) := by
    rw [← add_div]
    have hcast : (k : ℚ) + 1 ≤ l := by exact_mod_cast hkl
    exact div_le_div_of_nonneg_right hcast hpos.le
  have hbits : (l : ℚ) / amount (form z) < 2 ^ (52 : Int) * (1 / amount (form z)) := by
    rw [mul_one_div]
    have hcast : (l : ℚ) < 2 ^ (52 : Int) := by exact_mod_cast hl
    exact div_lt_div_of_pos_right hcast hpos
  have hleast : (2 : ℚ) ^ (-1074 : Int) < 1 / amount (form z) := by
    rw [lt_div_iff₀ hpos]
    calc (2 : ℚ) ^ (-1074 : Int) * amount (form z) < 2 ^ (-1074 : Int) * 2 ^ (1024 : Int) :=
          mul_lt_mul_of_pos_left (amount_lt_two_zpow hf) (by positivity)
      _ ≤ 1 := by
        rw [← zpow_add₀ two_ne_zero]
        exact zpow_le_one_of_nonpos₀ one_le_two (by decide)
  have hlt := hu.amount.lt hv.amount (by positivity) hleast hstep hbits
  have hfk := isFinite_div hz hf hkf (ofNat_le_ofNat (Nat.zero_le k))
  have hfl := isFinite_div hz hf hlf (ofNat_le_ofNat (Nat.zero_le l))
  rw [hueq] at hfk ⊢
  rw [hveq] at hfl ⊢
  exact ofForm_lt hu.trim hv.trim hfk hfl hlt

/-- A whole number below a product has a quotient by one factor that is not above the other. -/
theorem ofNat_div_le_of_lt_mul {k : Nat} (hk : k < 9007199254740992) (hx : x.isFinite)
    (h : Float.ofNat k < x * z) : Float.ofNat k / z ≤ x := by
  have hone := one_le_amount hz hf
  have hkf : (Float.ofNat k).isFinite := isFinite_ofNat (by omega)
  have hmul : x * z = ofForm (mul .binary64 (form x) (form z)) := rfl
  have hprod := rounds_mul (trim_form hx) (trim_form hf)
  have hself := rounds_self (trim_form hkf)
  -- Were the exact product no larger, the rounded one would not be above the number either.
  have hlt : (k : ℚ) < amount (form x) * amount (form z) := by
    by_contra hle
    rw [← amount_ofNat hk, not_lt] at hle
    have hback := hprod.ofForm_le hself hle
    rw [← hmul, ofForm_form] at hback
    exact not_lt_of_le hback h
  obtain ⟨u, hu, heq⟩ := rounds_quotient hz hf hkf
  rw [amount_ofNat hk] at hu
  have hquot : (k : ℚ) / amount (form z) ≤ amount (form x) := by
    rw [div_le_iff₀ (by linarith)]
    exact hlt.le
  have hle := hu.ofForm_le (rounds_self (trim_form hx)) hquot
  rwa [← heq, ofForm_form] at hle

end

theorem zero_div_of_pos (hz : 0 < z) : 0 / z = 0 := by
  have hquot : div .binary64 (.zero .positive) (form z) = .zero .positive := by
    obtain hf | hinf := finite_or_infinite_of_pos hz
    · obtain ⟨n, f, hn, hzf⟩ := finite_form_of_pos hf hz
      rw [hzf]
      rfl
    · rw [hinf]
      rfl
  have hdiv : 0 / z = ofForm (div .binary64 (.zero .positive) (form z)) := rfl
  rw [hdiv, hquot]
  rfl

end

end MotionTemplate.Number
