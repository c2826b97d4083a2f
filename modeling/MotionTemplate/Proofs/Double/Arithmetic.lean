import MotionTemplate.Proofs.Double.Order

/-! Sums and remainders of doubles: what their roundings keep of the exact results. -/
namespace MotionTemplate.Number
open Float.Model (UnpackedFloat Format totalExponent)
open Float.Model.UnpackedFloat

theorem hasSign_roundWithAccuracy (s : Sign) (m : Nat) (e : Int) (acc : Accuracy) :
    HasSign s (roundWithAccuracy .binary64 s m e acc) := by
  simp only [roundWithAccuracy]
  split <;> rfl

private theorem hasSign_round (s : Sign) (m : Nat) (e : Int) :
    HasSign s (UnpackedFloat.round .binary64 s m e) :=
  hasSign_roundWithAccuracy s _ _ _

private theorem hasSign_normalize_of_pos {m : Int} (hm : 0 < m) (e : Int) (s : Sign) :
    HasSign .positive (UnpackedFloat.normalize .binary64 m e s) := by
  rw [UnpackedFloat.normalize, Int.compare_eq_gt.2 hm]
  exact hasSign_round _ _ _

theorem hasSign_normalize {m : Int} (hm : 0 ≤ m) (e : Int) :
    HasSign .positive (UnpackedFloat.normalize .binary64 m e .positive) := by
  rcases Int.lt_or_eq_of_le hm with h | rfl
  · exact hasSign_normalize_of_pos h e .positive
  · rfl

private theorem form_add (x y : Float) :
    form (x + y) = form (ofForm (add .binary64 (form x) (form y))) := rfl

private theorem hasSign_add {u v : UnpackedFloat} (hu : HasSign .positive u)
    (hv : HasSign .positive v) : HasSign .positive (add .binary64 u v) := by
  cases u with
  | notANumber => exact hu.elim
  | infinity s =>
    obtain rfl : s = .positive := hu
    cases v with
    | notANumber => exact hv.elim
    | infinity t =>
      obtain rfl : t = .positive := hv
      rfl
    | zero | finite => rfl
  | zero s =>
    obtain rfl : s = .positive := hu
    cases v with
    | notANumber => exact hv.elim
    | zero t =>
      obtain rfl : t = .positive := hv
      rfl
    | infinity | finite => exact hv
  | finite s m e hm =>
    obtain rfl : s = .positive := hu
    cases v with
    | notANumber => exact hv.elim
    | infinity | zero => first | exact hv | rfl
    | finite t n f hn =>
      obtain rfl : t = .positive := hv
      have h : 0 < m <<< (e - min e f).toNat + n <<< (f - min e f).toNat :=
        Nat.add_pos_left (Nat.shiftLeft_pos_iff.2 hm) _
      exact hasSign_normalize_of_pos (Int.natCast_pos.2 h) _ _

/-- A negative zero adds nothing. -/
private theorem add_negative_zero {v : UnpackedFloat} (hv : HasSign .positive v) :
    HasSign .positive (add .binary64 (.zero .negative) v) ∧
      HasSign .positive (add .binary64 v (.zero .negative)) := by
  cases v with
  | notANumber => exact hv.elim
  | zero t =>
    obtain rfl : t = .positive := hv
    exact ⟨rfl, rfl⟩
  | infinity | finite => exact ⟨hv, hv⟩

/-- A sum of doubles that are not negative is not negative, and never undefined. -/
theorem add_nonneg {x y : Float} (hx : 0 ≤ x) (hy : 0 ≤ y) : 0 ≤ x + y := by
  rw [nonneg_iff_form] at hx hy ⊢
  rw [form_add]
  rcases hx with hx | hx
  · rw [hx]
    rcases hy with hy | hy
    · rw [hy]
      exact .inl rfl
    · exact .inr (hasSign_form_ofForm (add_negative_zero hy).1)
  · rcases hy with hy | hy
    · rw [hy]
      exact .inr (hasSign_form_ofForm (add_negative_zero hx).2)
    · exact .inr (hasSign_form_ofForm (hasSign_add hx hy))

/-- A sum with an undefined value is undefined. -/
theorem isNaN_add_left {x : Float} (hx : x.isNaN) (y : Float) : (x + y).isNaN := by
  change (form x).isNaN at hx
  change (form (x + y)).isNaN
  cases h : form x with
  | notANumber =>
    have hadd : add .binary64 .notANumber (form y) = .notANumber := by
      cases form y <;> rfl
    rw [form_add, h, hadd]
    rfl
  | infinity | zero | finite =>
    rw [h] at hx
    exact absurd hx Bool.false_ne_true

theorem targetExponent_eq (m : Nat) (e : Int) :
    Format.binary64.targetExponent (totalExponent m e) = max (m.log2 + 1 + e - 53) (-1074) := rfl

theorem shiftToTargetExponent_self {m : Nat} {e : Int}
    (h : Format.binary64.targetExponent (totalExponent m e) ≤ e) :
    shiftToTargetExponent .binary64 m e .exact = (⟨m, false, false⟩, e) := by
  rw [shiftToTargetExponent, shiftToExponent,
    show (Format.binary64.targetExponent (totalExponent m e) - e).toNat = 0 by omega]
  simp [HShiftRight.hShiftRight, Nat.repeat, ExtendedMantissa.ofMantissaAndAccuracy]

/-- A mantissa that needs no shift is not rounded. -/
private theorem roundWithAccuracy_exact (s : Sign) {m : Nat} {e : Int} (hm : 0 < m)
    (h : Format.binary64.targetExponent (totalExponent m e) ≤ e) :
    roundWithAccuracy .binary64 s m e .exact = .finite s m e hm := by
  have hr : (ExtendedMantissa.mk m false false).roundedMantissa = m := rfl
  simp only [roundWithAccuracy, shiftToTargetExponent_self h, hr]
  rw [dif_neg (Nat.ne_of_gt hm)]

theorem log2_shiftLeft {m : Nat} (hm : 0 < m) (k : Nat) :
    (m <<< k).log2 = m.log2 + k := by
  rw [Nat.log2_eq_iff (Nat.ne_of_gt (Nat.shiftLeft_pos_iff.2 hm)), Nat.shiftLeft_eq]
  have hle := Nat.log2_self_le (Nat.ne_of_gt hm)
  have hlt : m < 2 ^ (m.log2 + 1) := Nat.lt_log2_self
  constructor
  · rw [Nat.pow_add]
    exact Nat.mul_le_mul_right _ hle
  · rw [Nat.add_right_comm, Nat.pow_add]
    exact Nat.mul_lt_mul_of_pos_right hlt (Nat.two_pow_pos k)

/-- A number of 53 bits is represented exactly, in the form that fits. -/
theorem normalize_exact {m : Nat} {e : Int} (hm : 0 < m) (hlt : m < 9007199254740992)
    (hlo : -1074 ≤ e) (hhi : e ≤ 971) (s : Sign) :
    ∃ k : Nat, ∃ h : 0 < m <<< k,
      UnpackedFloat.normalize .binary64 m e s = .finite .positive (m <<< k) (e - k) h ∧
        Fits (.finite .positive (m <<< k) (e - k) h) := by
  have hl : m.log2 < 53 := (Nat.log2_lt (Nat.ne_of_gt hm)).2 hlt
  -- the least exponent that leaves room for all of the mantissa
  let t := max ((m.log2 : Int) + 1 + e - 53) (-1074)
  let k := (e - t).toNat
  have hk : 0 < m <<< k := Nat.shiftLeft_pos_iff.2 hm
  have hlog : (m <<< k).log2 = m.log2 + k := log2_shiftLeft hm k
  have ht : e - k = t := by omega
  refine ⟨k, hk, ?_, ?_, by omega, by omega, ?_⟩
  · have hle : Format.binary64.targetExponent (totalExponent (m <<< k) (e - k)) ≤ e - k := by
      rw [targetExponent_eq, hlog]
      omega
    rw [UnpackedFloat.normalize, Int.compare_eq_gt.2 (by omega)]
    exact roundWithAccuracy_exact .positive hk hle
  · exact (Nat.log2_lt (Nat.ne_of_gt hk) (k := 53)).1 (by omega)
  · by_cases h : t = -1074
    · exact .inr (by omega)
    · exact .inl ((Nat.le_log2 (Nat.ne_of_gt hk) (k := 52)).1 (by omega))

/-- A form that fits is what its mantissa and its exponent are rounded to. -/
private theorem normalize_of_fits {m : Nat} {e : Int} {hm : 0 < m}
    (h : Fits (.finite .positive m e hm)) (s : Sign) :
    UnpackedFloat.normalize .binary64 m e s = .finite .positive m e hm := by
  obtain ⟨hlt, hlo, hhi, hc⟩ := h
  obtain ⟨k, hk, hform, hlt', hlo', -, -⟩ := normalize_exact hm hlt hlo hhi s
  have hk0 : k = 0 := by
    -- the top bit is set already, or the exponent is the least one
    rcases hc with htop | hleast
    · rw [Nat.shiftLeft_eq] at hlt'
      apply Nat.eq_zero_of_not_pos
      intro hpos
      have htwo : 2 ^ 1 ≤ 2 ^ k := Nat.pow_le_pow_right Nat.two_pos hpos
      have hle : 4503599627370496 * 2 ^ 1 ≤ m * 2 ^ k := Nat.mul_le_mul htop htwo
      omega
    · omega
  subst hk0
  simpa using hform

/-- On a grid below both exponents, the smaller of two positive numbers has the lower place. -/
private theorem place_lt_of_mul_lt {m n a b : Nat} {e f g : Int} {hm : 0 < m} {hn : 0 < n}
    (hu : Fits (.finite .positive m e hm)) (hv : Fits (.finite .positive n f hn))
    (hea : e = g + a) (hfb : f = g + b) (h : m * 2 ^ a < n * 2 ^ b) :
    place (.finite .positive m e hm) < place (.finite .positive n f hn) := by
  obtain ⟨hm', he, -, hc⟩ := hu
  obtain ⟨hn', hf, -, -⟩ := hv
  simp only [place, Sign.apply]
  rcases Nat.lt_trichotomy a b with hab | rfl | hab
  · omega
  · have hmn : m < n := Nat.lt_of_mul_lt_mul_right h
    omega
  · -- the greater exponent is not the least one, so its mantissa has the top bit
    have htop : 4503599627370496 ≤ m := hc.resolve_right (by omega)
    have hpow : 2 ^ b * 2 ≤ 2 ^ a := Nat.pow_le_pow_right Nat.two_pos hab
    have hle : n * 2 ^ b ≤ m * 2 ^ a :=
      calc n * 2 ^ b ≤ 4503599627370496 * 2 * 2 ^ b := Nat.mul_le_mul_right _ (by omega)
        _ = 4503599627370496 * (2 ^ b * 2) := by rw [Nat.mul_assoc, Nat.mul_comm 2]
        _ ≤ m * 2 ^ a := Nat.mul_le_mul htop hpow
    omega

private theorem remainder_eq {x d : Float} {s t : Sign} {m n : Nat} {e f : Int} {hm : 0 < m}
    {hn : 0 < n} (hx : form x = .finite s m e hm) (hd : form d = .finite t n f hn) :
    remainder x d = ofForm (UnpackedFloat.normalize .binary64
      (s.apply ((m <<< (e - min e f).toNat % n <<< (f - min e f).toNat : Nat) : Int))
      (min e f) s) := by
  rw [form] at hx hd
  rw [remainder]
  simp only [hx, hd]
  rfl

/-- On the grid of two exponents the number with the lower one is not shifted, so what a division
leaves has no more than 53 bits. -/
private theorem mod_shiftLeft_lt {m n : Nat} (e f : Int) (hm : m < 9007199254740992)
    (hn : n < 9007199254740992) (hpos : 0 < n) :
    m <<< (e - min e f).toNat % n <<< (f - min e f).toNat < 9007199254740992 := by
  rcases Int.le_total e f with hef | hef
  · have ha : (e - min e f).toNat = 0 := by omega
    rw [ha, Nat.shiftLeft_zero]
    exact Nat.lt_of_le_of_lt (Nat.mod_le _ _) hm
  · have hb : (f - min e f).toNat = 0 := by omega
    rw [hb, Nat.shiftLeft_zero]
    exact Nat.lt_trans (Nat.mod_lt _ hpos) hn

/-- What a division leaves of a positive number lies below the divisor. -/
private theorem remainder_finite {x d : Float} {m n : Nat} {e f : Int} {hm : 0 < m} {hn : 0 < n}
    (hx : form x = .finite .positive m e hm) (hd : form d = .finite .positive n f hn) :
    HasSign .positive (form (remainder x d)) ∧ position (remainder x d) < position d := by
  have hu : Fits (.finite .positive m e hm) := hx ▸ fits_form x
  have hv : Fits (.finite .positive n f hn) := hd ▸ fits_form d
  obtain ⟨hmlt, helo, hehi, -⟩ := id hu
  obtain ⟨hnlt, hflo, hfhi, -⟩ := id hv
  let g := min e f
  let a := (e - g).toNat
  let b := (f - g).toNat
  let rest := m <<< a % n <<< b
  have hrest : rest < n <<< b := Nat.mod_lt _ (Nat.shiftLeft_pos_iff.2 hn)
  have hbits : rest < 9007199254740992 := mod_shiftLeft_lt e f hmlt hnlt hn
  have heq : remainder x d = ofForm (UnpackedFloat.normalize .binary64 rest g .positive) :=
    remainder_eq hx hd
  rw [heq, position, position, hd]
  rcases Nat.eq_zero_or_pos rest with h0 | hpos
  · rw [h0]
    have hz : form (ofForm (UnpackedFloat.normalize .binary64 (0 : Nat) g .positive)) =
        .zero .positive := form_ofForm (show Fits (.zero .positive) from trivial)
    rw [hz]
    refine ⟨rfl, ?_⟩
    simp only [place, Sign.apply]
    omega
  · obtain ⟨k, hk, hform, hfits⟩ := normalize_exact hpos hbits (show -1074 ≤ g by omega)
      (show g ≤ 971 by omega) .positive
    rw [hform, form_ofForm hfits]
    refine ⟨rfl, place_lt_of_mul_lt hfits hv (g := g - k) (a := 0) (b := b + k) ?_ ?_ ?_⟩
    · omega
    · omega
    · rw [Nat.pow_add, ← Nat.mul_assoc, Nat.shiftLeft_eq, Nat.pow_zero, Nat.mul_one]
      rw [Nat.shiftLeft_eq] at hrest
      exact Nat.mul_lt_mul_of_pos_right hrest (Nat.two_pow_pos k)

theorem finite_form_of_nonneg {x : Float} (hx : x.isFinite) (h : 0 ≤ x) :
    (∃ s, form x = .zero s) ∨ ∃ m e hm, form x = .finite .positive m e hm := by
  change (form x).isFinite at hx
  rw [nonneg_iff_form] at h
  cases hf : form x with
  | notANumber | infinity => simp [hf, UnpackedFloat.isFinite] at hx
  | zero s => exact .inl ⟨s, rfl⟩
  | finite s m e hm =>
    rw [hf] at h
    obtain rfl : s = .positive := h.resolve_left (by simp)
    exact .inr ⟨m, e, hm, rfl⟩

theorem finite_form_of_pos {d : Float} (hd : d.isFinite) (h : 0 < d) :
    ∃ n f hn, form d = .finite .positive n f hn := by
  obtain ⟨hn, hp⟩ := pos_iff.1 h
  refine (finite_form_of_nonneg hd (nonneg_iff.2 ⟨hn, Int.le_of_lt hp⟩)).resolve_left ?_
  rintro ⟨s, hs⟩
  rw [position, hs] at hp
  exact Int.lt_irrefl 0 hp

private theorem remainder_of_zero {x d : Float} {s t : Sign} {n : Nat} {f : Int} {hn : 0 < n}
    (hx : form x = .zero s) (hd : form d = .finite t n f hn) : remainder x d = x := by
  rw [form] at hx hd
  rw [remainder]
  simp only [hx, hd]

/-- Of two positive numbers the smaller one has no greater exponent, and on its grid the greater one
has the greater mantissa. -/
theorem mantissa_lt_of_place_lt {m n : Nat} {e f : Int} {hm : 0 < m} {hn : 0 < n}
    (hu : Fits (.finite .positive m e hm)) (hv : Fits (.finite .positive n f hn))
    (h : place (.finite .positive m e hm) < place (.finite .positive n f hn)) :
    e ≤ f ∧ m < n <<< (f - e).toNat := by
  obtain ⟨hmlt, helo, -, -⟩ := hu
  obtain ⟨hnlt, -, -, hc⟩ := hv
  simp only [place, Sign.apply] at h
  have hef : e ≤ f := by omega
  refine ⟨hef, ?_⟩
  rw [Nat.shiftLeft_eq]
  rcases Int.lt_or_eq_of_le hef with hlt | rfl
  · -- the greater exponent is not the least one, so its mantissa has the top bit
    have htop : 4503599627370496 ≤ n := hc.resolve_right (by omega)
    have htwo : 2 ^ 1 ≤ 2 ^ (f - e).toNat := Nat.pow_le_pow_right Nat.two_pos (by omega)
    have hle : 4503599627370496 * 2 ^ 1 ≤ n * 2 ^ (f - e).toNat := Nat.mul_le_mul htop htwo
    omega
  · have hmn : m < n := by omega
    rwa [Int.sub_self, Int.toNat_zero, Nat.pow_zero, Nat.mul_one]

/-- What is left of a number that is not negative lies in the period. -/
private theorem remainder_mem {x d : Float} (hx : x.isFinite) (hx0 : 0 ≤ x) (hd : d.isFinite)
    (hd0 : 0 < d) : 0 ≤ remainder x d ∧ remainder x d < d := by
  obtain ⟨hdn, hdp⟩ := pos_iff.1 hd0
  obtain ⟨n, f, hn, hdf⟩ := finite_form_of_pos hd hd0
  obtain ⟨s, hs⟩ | ⟨m, e, hm, hxf⟩ := finite_form_of_nonneg hx hx0
  · have hr : remainder x d = x := remainder_of_zero hs hdf
    rw [hr, lt_iff]
    refine ⟨hx0, (nonneg_iff.1 hx0).1, hdn, ?_⟩
    rwa [position, hs]
  · obtain ⟨hpos, hlt⟩ := remainder_finite hxf hdf
    have hr : 0 ≤ remainder x d := nonneg_iff_form.2 (.inr hpos)
    exact ⟨hr, lt_iff.2 ⟨(nonneg_iff.1 hr).1, hdn, hlt⟩⟩

/-- Below the period a number that is not negative is all that is left of itself. -/
private theorem remainder_of_lt {x d : Float} (hx0 : 0 ≤ x) (hd : d.isFinite) (h : x < d) :
    remainder x d = x := by
  have hd0 : 0 < d := pos_iff.2 ⟨(lt_iff.1 h).2.1,
    Int.lt_of_le_of_lt (nonneg_iff.1 hx0).2 (lt_iff.1 h).2.2⟩
  have hx : x.isFinite := isFinite_of_le hx0 (le_of_lt h) hd
  obtain ⟨n, f, hn, hdf⟩ := finite_form_of_pos hd hd0
  obtain ⟨s, hs⟩ | ⟨m, e, hm, hxf⟩ := finite_form_of_nonneg hx hx0
  · exact remainder_of_zero hs hdf
  · have hu : Fits (.finite .positive m e hm) := hxf ▸ fits_form x
    have hv : Fits (.finite .positive n f hn) := hdf ▸ fits_form d
    have hplace : place (.finite .positive m e hm) < place (.finite .positive n f hn) := by
      have hlt := (lt_iff.1 h).2.2
      rwa [position, position, hxf, hdf] at hlt
    obtain ⟨hef, hlt⟩ := mantissa_lt_of_place_lt hu hv hplace
    have hself : (e - e).toNat = 0 := by omega
    rw [remainder_eq hxf hdf, Int.min_eq_left hef, hself, Nat.shiftLeft_zero,
      Nat.mod_eq_of_lt hlt, Sign.apply, normalize_of_fits hu, ← hxf]
    exact ofForm_form x

private theorem wrap_eq_remainder {x d : Float} (h : 0 ≤ remainder x d) :
    wrap x d = remainder x d := by
  have h0 : ¬ remainder x d < 0.0 := not_lt_of_le h
  rw [wrap]
  simp only [if_neg h0]

theorem wrap_mem {x d : Float} (hx : x.isFinite) (hx0 : 0 ≤ x) (hd : d.isFinite) (hd0 : 0 < d) :
    0 ≤ wrap x d ∧ wrap x d < d := by
  have h := remainder_mem hx hx0 hd hd0
  rwa [wrap_eq_remainder h.1]

/-- In the period a number is its own representative. -/
theorem wrap_of_lt {x d : Float} (hx0 : 0 ≤ x) (hd : d.isFinite) (h : x < d) : wrap x d = x := by
  have hr := remainder_of_lt hx0 hd h
  rw [wrap_eq_remainder (hr.symm ▸ hx0), hr]

/-- An infinite time has no place in a period. -/
theorem isNaN_wrap {x d : Float} (hx : x.isFinite = false) : (wrap x d).isNaN := by
  have hr : remainder x d = 0.0 / 0.0 := by
    change (form x).isFinite = false at hx
    rw [form] at hx
    rw [remainder]
    cases hf : x.toModel.unpack with
    | zero | finite => simp [hf, UnpackedFloat.isFinite] at hx
    | notANumber | infinity => rfl
  rw [wrap, hr]
  simp only [if_neg (show ¬ (0.0 / 0.0 : Float) < 0.0 by decide)]
  decide

private theorem form_abs (x : Float) : form x.abs = (form x).abs := by
  have h : form x.abs = form (ofForm (form x).abs) := rfl
  rw [h, form_ofForm]
  have hf := fits_form x
  cases hx : form x with
  | finite s m e hm =>
    rw [hx] at hf
    exact hf
  | _ => trivial

private theorem abs_nonneg {x : Float} (h : x.abs.isNaN = false) : 0 ≤ x.abs := by
  change (form x.abs).isNaN = false at h
  rw [nonneg_iff_form]
  rw [form_abs] at h ⊢
  refine .inr ?_
  cases hx : form x with
  | notANumber => simp [hx, UnpackedFloat.abs, UnpackedFloat.isNaN] at h
  | _ => rfl

theorem isFinite_of_abs_lt {x y : Float} (hy : y.isFinite) (h : x.abs < y) : x.isFinite := by
  have habs : x.abs.isFinite := isFinite_of_le (abs_nonneg (lt_iff.1 h).1) (le_of_lt h) hy
  change (form x.abs).isFinite at habs
  change (form x).isFinite
  rw [form_abs] at habs
  cases hx : form x with
  | zero | finite => rfl
  | notANumber | infinity =>
    rw [hx] at habs
    exact habs

/-- Only a finite number has a finite difference to a finite one. -/
theorem isFinite_of_sub {x y : Float} (hx : x.isFinite) (h : (x - y).isFinite) : y.isFinite := by
  have hsub : form (x - y) = form (ofForm (sub .binary64 (form x) (form y))) := rfl
  change (form x).isFinite at hx
  change (form (x - y)).isFinite at h
  change (form y).isFinite
  rw [hsub] at h
  cases hxf : form x with
  | notANumber | infinity => simp [hxf, UnpackedFloat.isFinite] at hx
  | zero s | finite s m e hm =>
    cases hyf : form y with
    | zero | finite => rfl
    | notANumber =>
      rw [hxf, hyf] at h
      change (form (ofForm .notANumber)).isFinite at h
      exact absurd h (by decide)
    | infinity t =>
      rw [hxf, hyf] at h
      change (form (ofForm (.infinity (-t)))).isFinite at h
      rwa [form_ofForm (show Fits (.infinity (-t)) from trivial)] at h

/-- Not the negative zero, the only value that is lost where zero is added. -/
def Plain (x : Float) : Prop := form x ≠ .zero .negative

theorem plain_of_hasSign {x : Float} (h : HasSign .positive (form x)) : Plain x := by
  intro hx
  rw [hx] at h
  exact nomatch h

theorem plain_of_isNaN {x : Float} (h : x.isNaN) : Plain x := by
  intro hx
  change (form x).isNaN at h
  rw [hx] at h
  exact nomatch h

theorem plain_of_pos {x : Float} (h : 0 < x) : Plain x := by
  intro hx
  have hp := (pos_iff.1 h).2
  rw [position, hx] at hp
  exact Int.lt_irrefl 0 hp

private theorem form_zero : form (0 : Float) = .zero .positive := rfl

theorem Plain.add_zero {x : Float} (h : Plain x) : x + 0 = x := by
  have hadd : add .binary64 (form x) (.zero .positive) = form x := by
    rw [Plain] at h
    cases hx : form x with
    | notANumber | infinity | finite => rfl
    | zero s =>
      cases s with
      | positive => rfl
      | negative => exact absurd hx h
  change ofForm (add .binary64 (form x) (form 0)) = x
  rw [form_zero, hadd, ofForm_form]

private theorem hasSign_atLeastZero (x : Float) : HasSign .positive (form (atLeastZero x)) := by
  rw [atLeastZero]
  split
  · next h =>
    exact (nonneg_iff_form.1 (le_of_lt h)).resolve_left (plain_of_pos h)
  · rw [form_zero]
    rfl

/-- A sum with what is counted from zero is plain, whatever zero it starts from. -/
theorem plain_add_atLeastZero {x : Float} (hx : ¬ x < 0) (y : Float) :
    Plain (x + atLeastZero y) := by
  cases hn : x.isNaN with
  | true => exact plain_of_isNaN (isNaN_add_left hn _)
  | false =>
    apply plain_of_hasSign
    have hy := hasSign_atLeastZero y
    rcases nonneg_iff_form.1 ((lt_or_le hn rfl).resolve_left hx) with hx | hx
    · rw [form_add, hx]
      exact hasSign_form_ofForm (add_negative_zero hy).1
    · exact hasSign_form_ofForm (hasSign_add hx hy)

private theorem plain_remainder {x d : Float} (hx : x.isFinite) (hx0 : 0 ≤ x) (hp : Plain x)
    (hd : d.isFinite) (hd0 : 0 < d) : Plain (remainder x d) := by
  obtain ⟨n, f, hn, hdf⟩ := finite_form_of_pos hd hd0
  obtain ⟨s, hs⟩ | ⟨m, e, hm, hxf⟩ := finite_form_of_nonneg hx hx0
  · rwa [remainder_of_zero hs hdf]
  · exact plain_of_hasSign (remainder_finite hxf hdf).1

theorem plain_wrap {x d : Float} (hx : ¬ x < 0) (hp : Plain x) (hd : d.isFinite) (hd0 : 0 < d) :
    Plain (wrap x d) := by
  cases hf : x.isFinite with
  | true =>
    have hx0 : 0 ≤ x := (lt_or_le (isFinite_iff.1 hf).1 rfl).resolve_left hx
    rw [wrap_eq_remainder (remainder_mem hf hx0 hd hd0).1]
    exact plain_remainder hf hx0 hp hd hd0
  | false => exact plain_of_isNaN (isNaN_wrap hf)

theorem atLeastZero_sub_self (x : Float) : atLeastZero (x - x) = 0 := by
  have hsub : sub .binary64 (form x) (form x) = .notANumber ∨
      ∃ s, sub .binary64 (form x) (form x) = .zero s := by
    cases form x with
    | notANumber => exact .inl rfl
    | infinity s => cases s <;> exact .inl rfl
    | zero s => cases s <;> exact .inr ⟨_, rfl⟩
    | finite s m e hm =>
      refine .inr ⟨.positive, ?_⟩
      simp only [sub, Int.sub_self]
      rfl
  have hform : form (x - x) = form (ofForm (sub .binary64 (form x) (form x))) := rfl
  have hnot : ¬ 0 < x - x := by
    intro h
    obtain ⟨hn, hp⟩ := pos_iff.1 h
    rw [position, hform] at hp
    obtain heq | ⟨s, heq⟩ := hsub
    · rw [heq, form_ofForm (show Fits .notANumber from trivial)] at hp
      exact Int.lt_irrefl 0 hp
    · rw [heq, form_ofForm (show Fits (.zero s) from trivial)] at hp
      exact Int.lt_irrefl 0 hp
  rw [atLeastZero, if_neg hnot]

/-- All undefined values are the same. -/
theorem eq_of_isNaN {x y : Float} (hx : x.isNaN) (hy : y.isNaN) : x = y := by
  change (form x).isNaN at hx
  change (form y).isNaN at hy
  apply form_injective
  cases hxf : form x with
  | notANumber =>
    cases hyf : form y with
    | notANumber => rfl
    | infinity | zero | finite =>
      rw [hyf] at hy
      exact nomatch hy
  | infinity | zero | finite =>
    rw [hxf] at hx
    exact nomatch hx

end MotionTemplate.Number
