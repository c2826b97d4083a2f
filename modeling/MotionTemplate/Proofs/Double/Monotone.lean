import MotionTemplate.Proofs.Double.Decimal

/-! Order of rounded results. Rounding is monotone, so whatever is computed from exact operands and
rounded once keeps the order of its exact results: sums, differences and quotients of doubles, and
the doubles next to integers. -/
namespace MotionTemplate.Number
open Float.Model (UnpackedFloat Format totalExponent)
open Float.Model.UnpackedFloat

/-- A number that is taken with a sign. -/
def withSign : Sign → ℚ → ℚ
  | .positive, v => v
  | .negative, v => -v

/-- The number that a form stands for. The forms that stand for none count as zero. -/
def amount : UnpackedFloat → ℚ
  | .finite s m e _ => withSign s (m * 2 ^ e)
  | .zero _ | .infinity _ | .notANumber => 0

@[simp]
theorem amount_zero (s : Sign) : amount (.zero s) = 0 := rfl

theorem amount_neg (u : UnpackedFloat) : amount u.neg = -amount u := by
  cases u with
  | notANumber | infinity | zero => exact neg_zero.symm
  | finite s => cases s <;> simp [UnpackedFloat.neg, amount, withSign]

theorem withSign_mul (s t : Sign) (v w : ℚ) :
    withSign s v * withSign t w = withSign (s * t) (v * w) := by
  cases s <;> cases t <;> simp [withSign]

/-- The forms that rounding ends in: those of finite doubles, and those whose exponent is too
large for one. -/
def Trim : UnpackedFloat → Prop
  | .finite _ m e _ => m < 9007199254740992 ∧ -1074 ≤ e ∧ (4503599627370496 ≤ m ∨ e = -1074)
  | .zero _ => True
  | .infinity _ | .notANumber => False

/-- A number of either sign, and what it is rounded to. -/
def RoundedTo (v q : ℚ) : Prop :=
  ∃ s w r t, Nearest w r t ∧ v = withSign s w ∧ q = withSign s (r * 2 ^ t)

/-- A form that a number is rounded to. -/
structure Rounds (v : ℚ) (u : UnpackedFloat) : Prop where
  trim : Trim u
  amount : RoundedTo v (amount u)

section

variable {v w : ℚ} {m r q : Nat} {t u : Int}

private theorem mantissa_lt (h : m < 9007199254740992) (t : Int) :
    (m : ℚ) * 2 ^ t < 2 ^ (t + 53) := by
  rw [two_zpow_add_53]
  exact mul_lt_mul_of_pos_right (Nat.cast_lt.2 h) (zpow_pos two_pos _)

private theorem mantissa_le (h : m ≤ 9007199254740992) (t : Int) :
    (m : ℚ) * 2 ^ t ≤ 2 ^ (t + 53) := by
  rw [two_zpow_add_53]
  exact mul_le_mul_of_nonneg_right (Nat.cast_le.2 h) (zpow_pos two_pos _).le

private theorem le_mantissa (h : 4503599627370496 ≤ m) (t : Int) :
    2 ^ (t + 52) ≤ (m : ℚ) * 2 ^ t := by
  rw [two_zpow_add_52]
  exact mul_le_mul_of_nonneg_right (Nat.cast_le.2 h) (zpow_pos two_pos _).le

/-- On one grid rounding is monotone, and between two grids lies a power of two. -/
theorem Nearest.mono (hv : Nearest v r t) (hw : Nearest w q u) (h : v ≤ w) :
    (r : ℚ) * 2 ^ t ≤ q * 2 ^ u := by
  have ht : (0 : ℚ) < 2 ^ t := zpow_pos two_pos _
  rcases Int.lt_trichotomy t u with hlt | rfl | hgt
  · have hfull : 2 ^ (u + 52) ≤ w := hw.full.resolve_left (by have := hv.least; omega)
    calc (r : ℚ) * 2 ^ t ≤ 2 ^ (t + 53) := mantissa_le hv.le_two_pow t
      _ ≤ 2 ^ (u + 52) := zpow_le_zpow_right₀ one_le_two (by omega)
      _ ≤ q * 2 ^ u := le_mantissa (hw.two_pow_le hfull) u
  · have hrq : r ≤ q := hv.rounds.mono hw.rounds (div_le_div_of_nonneg_right h ht.le)
    exact mul_le_mul_of_nonneg_right (Nat.cast_le.2 hrq) ht.le
  · -- The larger number would lie below the power of two that the smaller one has reached.
    have hfull : 2 ^ (t + 52) ≤ v := hv.full.resolve_left (by have := hw.least; omega)
    have hpow : (2 : ℚ) ^ (u + 53) ≤ 2 ^ (t + 52) := zpow_le_zpow_right₀ one_le_two (by omega)
    exact absurd (hw.room.trans_le (hpow.trans hfull)) (not_lt.2 h)

theorem nearest_zero : Nearest 0 0 (-1074) :=
  ⟨le_rfl, le_rfl, zpow_pos two_pos _, .inl rfl, by simpa using roundsTo_natCast 0⟩

/-- Rounding across zero keeps the order as well, since it keeps signs. -/
theorem RoundedTo.mono {p p' : ℚ} (hv : RoundedTo v p) (hw : RoundedTo w p') (h : v ≤ w) :
    p ≤ p' := by
  obtain ⟨s, x, r, t, hx, rfl, rfl⟩ := hv
  obtain ⟨s', y, q, u, hy, rfl, rfl⟩ := hw
  have hr : (0 : ℚ) ≤ r * 2 ^ t := by positivity
  have hq : (0 : ℚ) ≤ q * 2 ^ u := by positivity
  cases s <;> cases s' <;> simp only [withSign] at h ⊢
  case negative.negative => exact neg_le_neg (hy.mono hx (neg_le_neg_iff.1 h))
  case negative.positive => exact (neg_nonpos.2 hr).trans hq
  case positive.negative =>
    -- both numbers are zero
    have hx0 := hx.mono nearest_zero (by linarith [hy.nonneg])
    have hy0 := hy.mono nearest_zero (by linarith [hx.nonneg])
    rw [Nat.cast_zero, zero_mul] at hx0 hy0
    linarith
  case positive.positive => exact hx.mono hy h

end

section

variable {u v : UnpackedFloat}

/-- Of two positive forms the one with the lower place is the smaller number. -/
private theorem amount_lt_of_place_lt {m n : Nat} {e f : Int} {hm : 0 < m} {hn : 0 < n}
    (hu : Trim (.finite .positive m e hm)) (hv : Trim (.finite .positive n f hn))
    (h : (e + 1075) * 9007199254740992 + m < (f + 1075) * 9007199254740992 + n) :
    (m : ℚ) * 2 ^ e < n * 2 ^ f := by
  obtain ⟨hmlt, helo, -⟩ := hu
  obtain ⟨hnlt, -, hc⟩ := hv
  rcases Int.lt_or_eq_of_le (show e ≤ f by omega) with hlt | rfl
  · -- the greater exponent is not the least one, so its mantissa has the top bit
    have htop : 4503599627370496 ≤ n := hc.resolve_right (by omega)
    calc (m : ℚ) * 2 ^ e < 2 ^ (e + 53) := mantissa_lt hmlt e
      _ ≤ 2 ^ (f + 52) := zpow_le_zpow_right₀ one_le_two (by omega)
      _ ≤ n * 2 ^ f := le_mantissa htop f
  · have hmn : m < n := by omega
    exact mul_lt_mul_of_pos_right (Nat.cast_lt.2 hmn) (zpow_pos two_pos _)

private theorem amount_sign {s : Sign} {m : Nat} {e : Int} {hm : 0 < m}
    (h : Trim (.finite s m e hm)) :
    (s = .positive ∧ 0 < place (.finite s m e hm) ∧ 0 < amount (.finite s m e hm)) ∨
      (s = .negative ∧ place (.finite s m e hm) < 0 ∧ amount (.finite s m e hm) < 0) := by
  obtain ⟨-, helo, -⟩ := h
  have hpos : (0 : ℚ) < m * 2 ^ e := mul_pos (Nat.cast_pos.2 hm) (zpow_pos two_pos _)
  cases s with
  | positive =>
    refine .inl ⟨rfl, ?_, ?_⟩
    · simp only [place, Sign.apply]
      omega
    · simpa [amount, withSign] using hpos
  | negative =>
    refine .inr ⟨rfl, ?_, ?_⟩
    · simp only [place, Sign.apply]
      omega
    · simpa [amount, withSign] using hpos

private theorem amount_lt (hu : Trim u) (hv : Trim v) (h : place u < place v) :
    amount u < amount v := by
  cases u with
  | notANumber | infinity => exact hu.elim
  | zero s =>
    cases v with
    | notANumber | infinity => exact hv.elim
    | zero t => exact absurd h (Int.lt_irrefl 0)
    | finite t n f hn =>
      obtain ⟨-, -, ha⟩ | ⟨-, hp, -⟩ := amount_sign hv
      · exact ha
      · exact absurd h (Int.not_lt.2 hp.le)
  | finite s m e hm =>
    cases v with
    | notANumber | infinity => exact hv.elim
    | zero t =>
      obtain ⟨-, hp, -⟩ | ⟨-, -, ha⟩ := amount_sign hu
      · exact absurd h (Int.not_lt.2 hp.le)
      · exact ha
    | finite t n f hn =>
      obtain ⟨rfl, hp, ha⟩ | ⟨rfl, hp, ha⟩ := amount_sign hu <;>
        obtain ⟨rfl, hp', ha'⟩ | ⟨rfl, hp', ha'⟩ := amount_sign hv
      · exact amount_lt_of_place_lt hu hv h
      · omega
      · exact ha.trans ha'
      · have hu' : Trim (.finite .positive m e hm) := hu
        have hv' : Trim (.finite .positive n f hn) := hv
        have hlt := amount_lt_of_place_lt hv' hu' (by
          simp only [place, Sign.apply] at h
          omega)
        simpa [amount, withSign] using hlt

private theorem amount_eq (hu : Trim u) (hv : Trim v) (h : place u = place v) :
    amount u = amount v := by
  cases u with
  | notANumber | infinity => exact hu.elim
  | zero s =>
    cases v with
    | notANumber | infinity => exact hv.elim
    | zero t => rfl
    | finite t n f hn =>
      have h0 : place (.zero s) = 0 := rfl
      obtain ⟨-, hp, -⟩ | ⟨-, hp, -⟩ := amount_sign hv <;> omega
  | finite s m e hm =>
    cases v with
    | notANumber | infinity => exact hv.elim
    | zero t =>
      have h0 : place (.zero t) = 0 := rfl
      obtain ⟨-, hp, -⟩ | ⟨-, hp, -⟩ := amount_sign hu <;> omega
    | finite t n f hn =>
      obtain ⟨hmlt, -, -⟩ := id hu
      obtain ⟨hnlt, -, -⟩ := id hv
      have hst : s = t := by
        obtain ⟨rfl, hp, -⟩ | ⟨rfl, hp, -⟩ := amount_sign hu <;>
          obtain ⟨rfl, hp', -⟩ | ⟨rfl, hp', -⟩ := amount_sign hv <;> first | rfl | omega
      subst hst
      obtain ⟨rfl, rfl⟩ : e = f ∧ m = n := by
        cases s <;> simp only [place, Sign.apply] at h <;> omega
      rfl

/-- The order of numbers is that of their places. -/
theorem place_le_iff (hu : Trim u) (hv : Trim v) : place u ≤ place v ↔ amount u ≤ amount v := by
  rcases Int.lt_trichotomy (place u) (place v) with h | h | h
  · exact iff_of_true h.le (amount_lt hu hv h).le
  · exact iff_of_true h.le (amount_eq hu hv h).le
  · exact iff_of_false (Int.not_le.2 h) (not_le.2 (amount_lt hv hu h))

/-- What a place becomes when numbers that are too large become infinite. -/
private def packedPlace (z : Int) : Int :=
  if 2047 * 9007199254740992 ≤ z then 18446744073709551616
  else if z ≤ -(2047 * 9007199254740992) then -18446744073709551616
  else z

private theorem packedPlace_mono {y z : Int} (h : y ≤ z) : packedPlace y ≤ packedPlace z := by
  unfold packedPlace
  omega

private theorem position_ofForm (hu : Trim u) :
    (ofForm u).isNaN = false ∧ position (ofForm u) = packedPlace (place u) := by
  change (form (ofForm u)).isNaN = false ∧ place (form (ofForm u)) = _
  cases u with
  | notANumber | infinity => exact hu.elim
  | zero s =>
    rw [form_ofForm (show Fits (.zero s) from trivial)]
    exact ⟨rfl, rfl⟩
  | finite s m e hm =>
    obtain ⟨hlt, hlo, hc⟩ := id hu
    rcases Int.lt_or_le 971 e with hbig | hsmall
    · rw [form_ofForm_of_large hbig]
      refine ⟨rfl, ?_⟩
      cases s <;> simp only [place, Sign.apply, packedPlace] <;> split_ifs <;> omega
    · rw [form_ofForm (show Fits (.finite s m e hm) from ⟨hlt, hlo, hsmall, hc⟩)]
      refine ⟨rfl, ?_⟩
      cases s <;> simp only [place, Sign.apply, packedPlace] <;> split_ifs <;> omega

/-- Rounded numbers are packed to doubles in their order. -/
theorem Rounds.ofForm_le {x y : ℚ} (hu : Rounds x u) (hv : Rounds y v) (h : x ≤ y) :
    ofForm u ≤ ofForm v := by
  obtain ⟨hun, hup⟩ := position_ofForm hu.trim
  obtain ⟨hvn, hvp⟩ := position_ofForm hv.trim
  have hplace : place u ≤ place v := (place_le_iff hu.trim hv.trim).2 (hu.amount.mono hv.amount h)
  rw [le_iff, hup, hvp]
  exact ⟨hun, hvn, packedPlace_mono hplace⟩

/-- Of two finite doubles the one whose form is the greater number is the greater. -/
theorem ofForm_lt (hu : Trim u) (hv : Trim v) (hfu : (ofForm u).isFinite)
    (hfv : (ofForm v).isFinite) (h : amount u < amount v) : ofForm u < ofForm v := by
  obtain ⟨hun, hup⟩ := position_ofForm hu
  obtain ⟨hvn, hvp⟩ := position_ofForm hv
  have hplace : place u < place v := Int.not_le.1 fun hle =>
    not_le.2 h ((place_le_iff hv hu).1 hle)
  obtain ⟨-, hulo, huhi⟩ := isFinite_iff.1 hfu
  obtain ⟨-, hvlo, hvhi⟩ := isFinite_iff.1 hfv
  rw [hup] at hulo huhi
  rw [hvp] at hvlo hvhi
  rw [lt_iff, hup, hvp]
  refine ⟨hun, hvn, ?_⟩
  unfold packedPlace at *
  split_ifs at * <;> omega

/-- A form that fits and is finite is one that rounding may end in. -/
theorem trim_of_fits (hu : Fits u) (hf : u.isFinite) : Trim u := by
  cases u with
  | notANumber | infinity => exact nomatch hf
  | zero s => trivial
  | finite s m e hm => exact ⟨hu.1, hu.2.1, hu.2.2.2⟩

end

section

variable {u v : UnpackedFloat} {x : ℚ} {n m : Nat} {e f : Int} {acc : Accuracy}

theorem rounds_zero (s : Sign) : Rounds 0 (.zero s) :=
  ⟨trivial, s, 0, 0, -1074, nearest_zero, by cases s <;> simp [withSign],
    by cases s <;> simp [withSign, amount]⟩

/-- A double needs no rounding. -/
theorem rounds_self (hu : Trim u) : Rounds (amount u) u := by
  cases u with
  | notANumber | infinity => exact hu.elim
  | zero s => exact rounds_zero s
  | finite s m e hm =>
    obtain ⟨hlt, hlo, hc⟩ := id hu
    have hfull : e = -1074 ∨ 2 ^ (e + 52) ≤ (m : ℚ) * 2 ^ e :=
      hc.symm.imp_right fun htop => le_mantissa htop e
    have hplaces : RoundsTo ((m : ℚ) * 2 ^ e / 2 ^ e) m := by
      rw [mul_div_cancel_right₀ _ (zpow_ne_zero _ two_ne_zero)]
      exact roundsTo_natCast m
    have hnear : Nearest ((m : ℚ) * 2 ^ e) m e :=
      ⟨by positivity, hlo, mantissa_lt hlt e, hfull, hplaces⟩
    exact ⟨hu, s, m * 2 ^ e, m, e, hnear, rfl, rfl⟩

theorem rounds_roundWithAccuracy (hd : Describes (.ofMantissaAndAccuracy n acc) (x / 2 ^ f))
    (hf : f ≤ max (n.log2 + 1 + f - 53) (-1074)) (s : Sign) :
    Rounds (withSign s x) (roundWithAccuracy .binary64 s n f acc) := by
  obtain ⟨r, t, hnear, hcases⟩ := roundWithAccuracy_cases hd hf s
  obtain ⟨rfl, heq⟩ | ⟨hr, hlt, heq⟩ | ⟨rfl, heq⟩ := hcases
  · rw [heq]
    refine ⟨trivial, s, x, 0, t, hnear, rfl, ?_⟩
    cases s <;> simp [withSign, amount]
  · rw [heq]
    exact ⟨⟨hlt, hnear.least, hnear.full.symm.imp hnear.two_pow_le id⟩,
      s, x, r, t, hnear, rfl, rfl⟩
  · rw [heq]
    have hleast := hnear.least
    refine ⟨⟨by decide, by omega, .inl (Nat.le_refl _)⟩, s, x, _, t, hnear, rfl, ?_⟩
    rw [amount, two_zpow_eq 1 (add_comm t 1), ← mul_assoc]
    norm_num

private theorem rounds_round (s : Sign) (hm : 0 < m) (e : Int) :
    Rounds (withSign s (m * 2 ^ e)) (UnpackedFloat.round .binary64 s m e) := by
  -- the mantissa is shifted up as far as there is room for it
  let t := max ((m.log2 : Int) + 1 + e - 53) (-1074)
  let k := (e - t).toNat
  have hlog : (m <<< k).log2 = m.log2 + k := log2_shiftLeft hm k
  have hd : Describes (.ofMantissaAndAccuracy (m <<< k) .exact) (m * 2 ^ e / 2 ^ (e - k)) := by
    have hexact : (m : ℚ) * 2 ^ e / 2 ^ (e - k) = ((m <<< k : Nat) : ℚ) := by
      rw [div_eq_iff (zpow_ne_zero _ two_ne_zero), two_zpow_eq k (show e = k + (e - k) by omega),
        Nat.shiftLeft_eq, Nat.cast_mul, Nat.cast_pow, Nat.cast_ofNat, mul_assoc]
    rw [hexact]
    exact describes_natCast _
  exact rounds_roundWithAccuracy hd (by rw [hlog]; omega) s

/-- An integer on a grid of powers of two. -/
theorem rounds_normalize (m : Int) (e : Int) (s : Sign) :
    Rounds (m * 2 ^ e) (UnpackedFloat.normalize .binary64 m e s) := by
  rcases Int.lt_trichotomy m 0 with h | rfl | h
  · rw [UnpackedFloat.normalize, Int.compare_eq_lt.2 h]
    have hm : ((-m).toNat : ℚ) = -m := by
      have h' : ((-m).toNat : Int) = -m := by omega
      exact_mod_cast h'
    have hr := rounds_round .negative (show 0 < (-m).toNat by omega) e
    rwa [hm, withSign, neg_mul, neg_neg] at hr
  · rw [Int.cast_zero, zero_mul]
    exact rounds_zero s
  · rw [UnpackedFloat.normalize, Int.compare_eq_gt.2 h]
    have hm : (m.toNat : ℚ) = m := by
      have h' : (m.toNat : Int) = m := by omega
      exact_mod_cast h'
    have hr := rounds_round .positive (show 0 < m.toNat by omega) e
    rwa [hm] at hr

/-- On a lower grid a double takes a larger mantissa. -/
private theorem amount_finite (s : Sign) (m : Nat) (hm : 0 < m) {e g : Int} (h : g ≤ e) :
    amount (.finite s m e hm) = (s.apply (m <<< (e - g).toNat : Nat) : ℚ) * 2 ^ g := by
  have he : (2 : ℚ) ^ e = 2 ^ (e - g).toNat * 2 ^ g := two_zpow_eq _ (by omega)
  rw [amount, he, Nat.shiftLeft_eq]
  cases s <;> simp [withSign, Sign.apply, mul_assoc]

theorem rounds_add (hu : Trim u) (hv : Trim v) :
    Rounds (amount u + amount v) (add .binary64 u v) := by
  cases u with
  | notANumber | infinity => exact hu.elim
  | zero s =>
    cases v with
    | notANumber | infinity => exact hv.elim
    | zero t =>
      rw [amount_zero, amount_zero, add_zero, add]
      split <;> exact rounds_zero _
    | finite t n f hn =>
      rw [amount_zero, zero_add]
      exact rounds_self hv
  | finite s m e hm =>
    cases v with
    | notANumber | infinity => exact hv.elim
    | zero t =>
      rw [amount_zero, add_zero]
      exact rounds_self hu
    | finite t n f hn =>
      have hr := rounds_normalize (s.apply (m <<< (e - min e f).toNat : Nat)
        + t.apply (n <<< (f - min e f).toNat : Nat)) (min e f) .positive
      rwa [Int.cast_add, add_mul, ← amount_finite s m hm (min_le_left e f),
        ← amount_finite t n hn (min_le_right e f)] at hr

theorem rounds_mul (hu : Trim u) (hv : Trim v) :
    Rounds (amount u * amount v) (mul .binary64 u v) := by
  cases u with
  | notANumber | infinity => exact hu.elim
  | zero s =>
    rw [amount_zero, zero_mul]
    cases v with
    | notANumber | infinity => exact hv.elim
    | zero t | finite t => exact rounds_zero _
  | finite s m e hm =>
    cases v with
    | notANumber | infinity => exact hv.elim
    | zero t =>
      rw [amount_zero, mul_zero]
      exact rounds_zero _
    | finite t n f hn =>
      have hd : Describes (.ofMantissaAndAccuracy (m * n) .exact)
          (m * 2 ^ e * (n * 2 ^ f) / 2 ^ (e + f)) := by
        have hexact : (m : ℚ) * 2 ^ e * (n * 2 ^ f) / 2 ^ (e + f) = ((m * n : Nat) : ℚ) := by
          rw [div_eq_iff (zpow_ne_zero _ two_ne_zero), zpow_add₀ two_ne_zero, Nat.cast_mul]
          ring
        rw [hexact]
        exact describes_natCast _
      have hbits : e + f ≤ max ((m * n).log2 + 1 + (e + f) - 53) (-1074) := by
        -- one of the mantissas has its top bit set, or both exponents are the least one
        obtain ⟨-, helo, he⟩ := hu
        obtain ⟨-, hflo, hf⟩ := hv
        by_cases htop : 4503599627370496 ≤ m * n
        · have hlog : 52 ≤ (m * n).log2 := (Nat.le_log2 (Nat.mul_pos hm hn).ne').2 htop
          omega
        · have hm' : ¬ 4503599627370496 ≤ m := fun h => htop (h.trans (Nat.le_mul_of_pos_right m hn))
          have hn' : ¬ 4503599627370496 ≤ n := fun h => htop (h.trans (Nat.le_mul_of_pos_left n hm))
          omega
      have hr := rounds_roundWithAccuracy hd hbits (s * t)
      rwa [← withSign_mul] at hr

/-- A quotient by a positive double. -/
theorem rounds_div (hu : Trim u) (hm : 0 < m) (e : Int) :
    Rounds (amount u / (m * 2 ^ e)) (div .binary64 u (.finite .positive m e hm)) := by
  cases u with
  | notANumber | infinity => exact hu.elim
  | zero s =>
    rw [amount_zero, zero_div]
    exact rounds_zero _
  | finite s n f hn =>
    have hv : (n : ℚ) * 2 ^ f / (m * 2 ^ e) = n * 2 ^ f / (m * 2 ^ e) := rfl
    obtain ⟨q, t, acc, hcore, hd, hle⟩ := describes_quotient hn hm hv
    have hr := rounds_roundWithAccuracy hd hle s
    have hs : s / Sign.positive = s := by cases s <;> rfl
    simp only [div, hcore, hs]
    cases s with
    | positive => exact hr
    | negative => rwa [amount, withSign, neg_div]

end

section

variable {x y z : Float}

/-- Every double but an undefined one lies between the infinite ones. -/
private theorem position_mem (x : Float) :
    -18446744073709551616 ≤ position x ∧ position x ≤ 18446744073709551616 := by
  have hf := fits_form x
  rw [position]
  cases hx : form x with
  | notANumber | zero => simp [place]
  | infinity s => cases s <;> simp [place, Sign.apply]
  | finite s m e hm =>
    rw [hx] at hf
    obtain ⟨hlt, hlo, hhi, -⟩ := hf
    cases s <;> simp only [place, Sign.apply] <;> omega

private theorem isNaN_of_infinity {s : Sign} (hx : form x = .infinity s) : x.isNaN = false := by
  change (form x).isNaN = false
  rw [hx]
  rfl

private theorem le_of_form_infinity (hx : x.isNaN = false) (hy : form y = .infinity .positive) :
    x ≤ y := by
  refine le_iff.2 ⟨hx, isNaN_of_infinity hy, ?_⟩
  rw [position.eq_def y, hy]
  exact (position_mem x).2

private theorem le_of_form_neg_infinity (hx : form x = .infinity .negative)
    (hy : y.isNaN = false) : x ≤ y := by
  refine le_iff.2 ⟨isNaN_of_infinity hx, hy, ?_⟩
  rw [position.eq_def x, hx]
  exact (position_mem y).1

private theorem finite_or_infinite (hx : x.isNaN = false) :
    x.isFinite ∨ ∃ s, form x = .infinity s := by
  change (form x).isNaN = false at hx
  change (form x).isFinite ∨ _
  cases h : form x with
  | notANumber => exact nomatch h ▸ hx
  | infinity s => exact .inr ⟨s, rfl⟩
  | zero | finite => exact .inl rfl

theorem trim_form (h : x.isFinite) : Trim (form x) := trim_of_fits (fits_form x) h

/-- Doubles that are numbers are in the order of these. -/
theorem le_iff_amount (hx : x.isFinite) (hy : y.isFinite) :
    x ≤ y ↔ amount (form x) ≤ amount (form y) := by
  rw [le_iff, ← place_le_iff (trim_form hx) (trim_form hy)]
  exact ⟨fun h => h.2.2, fun h => ⟨(isFinite_iff.1 hx).1, (isFinite_iff.1 hy).1, h⟩⟩

theorem lt_iff_amount (hx : x.isFinite) (hy : y.isFinite) :
    x < y ↔ amount (form x) < amount (form y) := by
  rw [← not_le, ← le_iff_amount hy hx]
  exact ⟨not_le_of_lt, (lt_or_le (isFinite_iff.1 hx).1 (isFinite_iff.1 hy).1).resolve_right⟩

/-- In a comparison the lesser double is the least one, or the greater one is the greatest, or both
stand for numbers. -/
private theorem cases_of_le (h : x ≤ y) :
    form x = .infinity .negative ∨ form y = .infinity .positive ∨ (x.isFinite ∧ y.isFinite) := by
  obtain ⟨hx, hy, hle⟩ := le_iff.1 h
  rcases finite_or_infinite hx with hxf | ⟨s, hs⟩
  · rcases finite_or_infinite hy with hyf | ⟨t, ht⟩
    · exact .inr (.inr ⟨hxf, hyf⟩)
    · cases t with
      | positive => exact .inr (.inl ht)
      | negative =>
        rw [position.eq_def y, ht] at hle
        exact absurd hle (Int.not_le.2 (isFinite_iff.1 hxf).2.1)
  · cases s with
    | negative => exact .inl hs
    | positive =>
      rw [position.eq_def x, hs] at hle
      rcases finite_or_infinite hy with hyf | ⟨t, ht⟩
      · exact absurd hle (Int.not_le.2 (isFinite_iff.1 hyf).2.2)
      · cases t with
        | positive => exact .inr (.inl ht)
        | negative =>
          rw [position, ht] at hle
          exact absurd hle (by decide)

private theorem form_add_comm (u v : UnpackedFloat) : add .binary64 u v = add .binary64 v u := by
  cases u with
  | notANumber => cases v <;> rfl
  | infinity s =>
    cases v with
    | infinity t => cases s <;> cases t <;> rfl
    | notANumber | zero | finite => rfl
  | zero s =>
    cases v with
    | zero t => cases s <;> cases t <;> rfl
    | notANumber | infinity | finite => rfl
  | finite s m e hm =>
    cases v with
    | finite t n f hn =>
      simp only [add, decreaseExponent]
      rw [min_comm e f, Int.add_comm]
    | notANumber | infinity | zero => rfl

private theorem add_eq (x y : Float) : x + y = ofForm (add .binary64 (form x) (form y)) := rfl

theorem add_comm (x y : Float) : x + y = y + x := by
  rw [add_eq, add_eq, form_add_comm]

/-- A difference is a sum with the opposite. -/
private theorem sub_eq (x y : Float) : x - y = -y + x := by
  have hsub : sub .binary64 (form x) (form y) = add .binary64 (form x) (form y).neg := by
    cases form x with
    | notANumber => rfl
    | infinity s => cases form y <;> rfl
    | zero s => cases form y <;> rfl
    | finite s m e hm =>
      cases form y with
      | finite t n f hn =>
        cases t <;> simp [sub, add, UnpackedFloat.neg, Sign.apply, Int.sub_eq_add_neg]
      | notANumber | infinity | zero => rfl
  rw [add_comm, add_eq, form_neg, ← hsub]
  rfl

/-- A sum with an infinite operand is that operand, or undefined. -/
private theorem add_of_infinity {s : Sign} (hx : form x = .infinity s)
    (hn : (x + y).isNaN = false) : x + y = x := by
  have hor : add .binary64 (.infinity s) (form y) = .infinity s ∨
      add .binary64 (.infinity s) (form y) = .notANumber := by
    cases form y with
    | notANumber => exact .inr rfl
    | zero | finite => exact .inl rfl
    | infinity t => cases s <;> cases t <;> first | exact .inl rfl | exact .inr rfl
  rw [add_eq, hx] at hn ⊢
  rcases hor with heq | heq
  · rw [heq, ← hx, ofForm_form]
  · rw [heq] at hn
    exact absurd hn (by decide)

/-- Sums keep the order of their second operands, as far as they are defined. -/
theorem add_le_add_of_le (h : x ≤ y) (hx : (z + x).isNaN = false) (hy : (z + y).isNaN = false) :
    z + x ≤ z + y := by
  have hzn : z.isNaN = false := by
    cases hz : z.isNaN with
    | false => rfl
    | true => exact absurd (isNaN_add_left hz x) (ne_true_of_eq_false hx)
  rcases finite_or_infinite hzn with hz | ⟨s, hz⟩
  · obtain hinf | hinf | ⟨hxf, hyf⟩ := cases_of_le h
    · rw [add_comm] at hx
      refine le_of_form_neg_infinity ?_ hy
      rw [add_comm, add_of_infinity hinf hx, hinf]
    · rw [add_comm] at hy
      refine le_of_form_infinity hx ?_
      rw [add_comm, add_of_infinity hinf hy, hinf]
    · have hle := (le_iff_amount hxf hyf).1 h
      rw [add_eq, add_eq]
      exact (rounds_add (trim_form hz) (trim_form hxf)).ofForm_le
        (rounds_add (trim_form hz) (trim_form hyf)) (by linarith)
  · rw [add_of_infinity hz hx, add_of_infinity hz hy]
    exact le_refl hzn

/-- Differences keep the order of their first operands, as far as they are defined. -/
theorem sub_le_sub_of_le (h : x ≤ y) (hx : (x - z).isNaN = false) (hy : (y - z).isNaN = false) :
    x - z ≤ y - z := by
  rw [sub_eq] at hx hy ⊢
  rw [sub_eq]
  exact add_le_add_of_le h hx hy

theorem position_neg (x : Float) : position (-x) = -position x := by
  rw [position, position, form_neg]
  cases form x with
  | notANumber | zero => rfl
  | infinity s | finite s => cases s <;> simp [place, UnpackedFloat.neg, Sign.apply]

theorem isNaN_neg (x : Float) : (-x).isNaN = x.isNaN := by
  change (form (-x)).isNaN = (form x).isNaN
  rw [form_neg]
  cases form x <;> rfl

theorem neg_le_neg (h : x ≤ y) : -y ≤ -x := by
  obtain ⟨hx, hy, hle⟩ := le_iff.1 h
  rw [le_iff, isNaN_neg, isNaN_neg, position_neg, position_neg]
  exact ⟨hy, hx, Int.neg_le_neg hle⟩

/-- Differences turn the order of their second operands, as far as they are defined. -/
theorem sub_le_sub_left_of_le (h : x ≤ y) (hx : (z - x).isNaN = false)
    (hy : (z - y).isNaN = false) : z - y ≤ z - x := by
  have hsub (w : Float) : z - w = z + -w := (sub_eq z w).trans (add_comm _ _)
  rw [hsub] at hx hy
  rw [hsub, hsub]
  exact add_le_add_of_le (neg_le_neg h) hy hx

/-- From a number only what is undefined itself has an undefined difference. -/
theorem isNaN_sub_of_isFinite (hx : x.isFinite) (hy : y.isNaN = false) :
    (x - y).isNaN = false := by
  rcases finite_or_infinite hy with hyf | ⟨s, hs⟩
  · rw [sub_eq, add_eq]
    have hadd := rounds_add (trim_form (isFinite_neg hyf)) (trim_form hx)
    exact (position_ofForm hadd.trim).1
  · have hneg : form (-y) = .infinity (-s) := by
      rw [form_neg, hs]
      rfl
    change (form x).isFinite at hx
    rw [sub_eq, add_eq, hneg]
    generalize form x = u at hx
    cases u with
    | notANumber | infinity => exact nomatch hx
    | zero | finite =>
      exact isNaN_of_infinity (form_ofForm (show Fits (.infinity (-s)) from trivial))

/-- The difference to what is not greater is not negative. -/
theorem sub_nonneg_of_le (h : x ≤ y) (hx : x.isFinite) (hy : y.isFinite) : 0 ≤ y - x := by
  have hr := rounds_add (trim_form (isFinite_neg hx)) (trim_form hy)
  rw [form_neg, amount_neg] at hr
  have hle := (le_iff_amount hx hy).1 h
  rw [sub_eq, add_eq, form_neg]
  exact (rounds_zero .positive).ofForm_le hr (by linarith)

/-- A finite difference is one from a finite number. -/
theorem isFinite_of_sub_left (h : (x - y).isFinite) : x.isFinite := by
  have hn : (x - y).isNaN = false := (isFinite_iff.1 h).1
  rw [sub_eq, add_comm] at h hn
  have hxn : x.isNaN = false := by
    cases hx : x.isNaN with
    | false => rfl
    | true => exact absurd (isNaN_add_left hx _) (ne_true_of_eq_false hn)
  refine (finite_or_infinite hxn).resolve_right ?_
  rintro ⟨s, hs⟩
  rw [add_of_infinity hs hn] at h
  change (form x).isFinite at h
  rw [hs] at h
  exact nomatch h

theorem isNaN_sub_right (hy : y.isNaN) (x : Float) : (x - y).isNaN := by
  rw [sub_eq]
  exact isNaN_add_left ((isNaN_neg y).trans hy) x

/-- What has passed since any point does not become less, also where it is counted from zero. -/
theorem atLeastZero_sub_le (h : x ≤ y) (hy : y.isFinite) (z : Float) :
    atLeastZero (x - z) ≤ atLeastZero (y - z) := by
  by_cases h0 : 0 < x - z
  · have hxz : (x - z).isNaN = false := (lt_iff.1 h0).2.1
    have hz : z.isNaN = false := by
      cases hz : z.isNaN with
      | false => rfl
      | true => exact absurd (isNaN_sub_right hz x) (ne_true_of_eq_false hxz)
    exact atLeastZero_le_atLeastZero (sub_le_sub_of_le h hxz (isNaN_sub_of_isFinite hy hz))
  · rw [atLeastZero, if_neg h0]
    exact atLeastZero_nonneg _

theorem div_eq_ofForm {n : Nat} {f : Int} {hn : 0 < n}
    (hz : form z = .finite .positive n f hn) (x : Float) :
    x / z = ofForm (div .binary64 (form x) (.finite .positive n f hn)) := by
  rw [← hz]
  rfl

private theorem div_of_infinity {s : Sign} {n : Nat} {f : Int} {hn : 0 < n}
    (hz : form z = .finite .positive n f hn) (hx : form x = .infinity s) : x / z = x := by
  have hquot : div .binary64 (.infinity s) (.finite .positive n f hn) = .infinity s := by
    cases s <;> rfl
  rw [div_eq_ofForm hz, hx, hquot, ← hx, ofForm_form]

private theorem isNaN_div {n : Nat} {f : Int} {hn : 0 < n}
    (hz : form z = .finite .positive n f hn) (hx : x.isNaN = false) : (x / z).isNaN = false := by
  rcases finite_or_infinite hx with hxf | ⟨s, hs⟩
  · rw [div_eq_ofForm hz]
    exact (position_ofForm (rounds_div (trim_form hxf) hn f).trim).1
  · rwa [div_of_infinity hz hs]

/-- Quotients by a positive number keep the order of their dividends. -/
theorem div_le_div_of_le (h : x ≤ y) (hz : 0 < z) (hf : z.isFinite) : x / z ≤ y / z := by
  obtain ⟨n, f, hn, hzf⟩ := finite_form_of_pos hf hz
  obtain ⟨hx, hy, -⟩ := le_iff.1 h
  obtain hinf | hinf | ⟨hxf, hyf⟩ := cases_of_le h
  · refine le_of_form_neg_infinity ?_ (isNaN_div hzf hy)
    rw [div_of_infinity hzf hinf, hinf]
  · refine le_of_form_infinity (isNaN_div hzf hx) ?_
    rw [div_of_infinity hzf hinf, hinf]
  · have hpos : (0 : ℚ) < n * 2 ^ f := mul_pos (Nat.cast_pos.2 hn) (zpow_pos two_pos _)
    have hle := div_le_div_of_nonneg_right ((le_iff_amount hxf hyf).1 h) hpos.le
    rw [div_eq_ofForm hzf, div_eq_ofForm hzf]
    exact (rounds_div (trim_form hxf) hn f).ofForm_le (rounds_div (trim_form hyf) hn f) hle

/-- Above zero a double is a number or positive infinity. -/
theorem finite_or_infinite_of_pos (hz : 0 < z) :
    z.isFinite ∨ form z = .infinity .positive := by
  refine (finite_or_infinite (pos_iff.1 hz).1).imp_right ?_
  rintro ⟨s, hs⟩
  have hsign := hasSign_of_pos hz
  rw [hs] at hsign
  rw [hs, show s = .positive from hsign]

/-- An infinite divisor leaves nothing of a number. -/
private theorem form_div_of_infinity (hx : x.isFinite) (hz : form z = .infinity .positive) :
    ∃ s, form (x / z) = .zero s := by
  have hquot : ∃ s, div .binary64 (form x) (.infinity .positive) = .zero s := by
    change (form x).isFinite at hx
    generalize form x = u at hx
    cases u with
    | notANumber | infinity => exact nomatch hx
    | zero s | finite s => exact ⟨s / .positive, rfl⟩
  obtain ⟨s, hs⟩ := hquot
  have hdiv : x / z = ofForm (div .binary64 (form x) (.infinity .positive)) := by
    rw [← hz]
    rfl
  rw [hdiv, hs]
  exact ⟨s, form_ofForm (show Fits (.zero s) from trivial)⟩

/-- Numbers keep their order under every positive divisor, an infinite one included. -/
theorem div_le_div_of_isFinite (h : x ≤ y) (hx : x.isFinite) (hy : y.isFinite) (hz : 0 < z) :
    x / z ≤ y / z := by
  obtain hf | hinf := finite_or_infinite_of_pos hz
  · exact div_le_div_of_le h hz hf
  · obtain ⟨s, hs⟩ := form_div_of_infinity hx hinf
    obtain ⟨t, ht⟩ := form_div_of_infinity hy hinf
    rw [le_iff, position, position, Float.isNaN, Float.isNaN]
    change (form (x / z)).isNaN = false ∧ (form (y / z)).isNaN = false ∧ _
    rw [hs, ht]
    exact ⟨rfl, rfl, Int.le_refl _⟩

theorem form_one :
    form (1 : Float) = .finite .positive 4503599627370496 (-52) (by decide) := rfl

theorem div_self_of_pos (hz : 0 < z) (hf : z.isFinite) : z / z = 1 := by
  obtain ⟨n, f, hn, hzf⟩ := finite_form_of_pos hf hz
  have hpos : (n : ℚ) * 2 ^ f ≠ 0 := mul_ne_zero (Nat.cast_ne_zero.2 hn.ne') (by positivity)
  have hfits : Fits (.finite .positive 4503599627370496 (-52) (by decide)) :=
    form_one ▸ fits_form 1
  have hcell : Cell 4503599627370496 (-52) 1 := cell_self (by decide) (by norm_num)
  apply form_injective
  rw [div_eq_ofForm hzf, hzf, div_eq hfits hcell (div_self hpos).symm, form_ofForm hfits, form_one]

/-- A quotient by a positive number has the sign of its dividend. -/
theorem hasSign_div (hx : HasSign .positive (form x)) (hz : 0 < z) (hf : z.isFinite) :
    HasSign .positive (form (x / z)) := by
  obtain ⟨n, f, hn, hzf⟩ := finite_form_of_pos hf hz
  rw [div_eq_ofForm hzf]
  apply hasSign_form_ofForm
  generalize form x = u at hx
  cases u with
  | notANumber => exact hx.elim
  | infinity s | zero s =>
    obtain rfl : s = .positive := hx
    rfl
  | finite s m e hm =>
    obtain rfl : s = .positive := hx
    exact hasSign_roundWithAccuracy .positive _ _ _

theorem toFloat_eq_ofForm (n : UInt64) :
    n.toFloat = ofForm (UnpackedFloat.normalize .binary64 n.toNat 0 .positive) := rfl

theorem hasSign_toFloat (n : UInt64) : HasSign .positive (form n.toFloat) := by
  rw [toFloat_eq_ofForm]
  exact hasSign_form_ofForm (hasSign_normalize (Int.natCast_nonneg _) 0)

/-- The doubles next to integers are in the order of these. -/
theorem toFloat_le_toFloat {m n : UInt64} (h : m ≤ n) : m.toFloat ≤ n.toFloat := by
  have hle : ((m.toNat : Int) : ℚ) * 2 ^ (0 : Int) ≤ (n.toNat : Int) * 2 ^ (0 : Int) := by
    rw [zpow_zero, mul_one, mul_one]
    exact_mod_cast UInt64.le_iff_toNat_le.1 h
  rw [toFloat_eq_ofForm, toFloat_eq_ofForm]
  exact (rounds_normalize _ _ _).ofForm_le (rounds_normalize _ _ _) hle

end

end MotionTemplate.Number
