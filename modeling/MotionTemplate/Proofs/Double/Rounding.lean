import MotionTemplate.Proofs.Double.Arithmetic

/-! Rounding to the nearest double. A mantissa with its two residual bits describes an exact number,
and whatever lies in the cell of a double, halfway cases included when its mantissa is even, is
rounded to that double. -/
namespace MotionTemplate.Number
open Float.Model (UnpackedFloat Format totalExponent)
open Float.Model.UnpackedFloat

/-- The exact number whose integer part, first fractional bit and further bits are kept. -/
def Describes (em : ExtendedMantissa) (y : ℚ) : Prop :=
  match em with
  | ⟨m, false, false⟩ => y = m
  | ⟨m, false, true⟩ => m < y ∧ y < m + 1 / 2
  | ⟨m, true, false⟩ => y = m + 1 / 2
  | ⟨m, true, true⟩ => m + 1 / 2 < y ∧ y < m + 1

theorem Describes.floor {em : ExtendedMantissa} {y : ℚ} (h : Describes em y) :
    em.mantissa ≤ y ∧ y < em.mantissa + 1 := by
  obtain ⟨m, r, s⟩ := em
  cases r <;> cases s <;> simp only [Describes] at h ⊢ <;> constructor <;> linarith

private theorem describes_shiftRightOne {em : ExtendedMantissa} {y : ℚ} (h : Describes em y) :
    Describes em.shiftRightOne (y / 2) := by
  obtain ⟨m, r, s⟩ := em
  obtain ⟨k, rfl | rfl⟩ : ∃ k, m = 2 * k ∨ m = 2 * k + 1 := ⟨m / 2, by omega⟩
  · have hk : 2 * k / 2 = k := by omega
    have hb : (2 * k % 2 != 0) = false := by simp
    cases r <;> cases s <;>
      simp only [ExtendedMantissa.shiftRightOne, hk, hb, Describes, Bool.or_false, Bool.or_true,
        Nat.cast_mul, Nat.cast_ofNat] at h ⊢
    all_goals first | linarith | constructor <;> linarith
  · have hk : (2 * k + 1) / 2 = k := by omega
    have hb : ((2 * k + 1) % 2 != 0) = true := by simp
    cases r <;> cases s <;>
      simp only [ExtendedMantissa.shiftRightOne, hk, hb, Describes, Bool.or_false, Bool.or_true,
        Nat.cast_mul, Nat.cast_add, Nat.cast_one, Nat.cast_ofNat] at h ⊢
    all_goals first | linarith | constructor <;> linarith

theorem describes_shiftRight {em : ExtendedMantissa} {y : ℚ} (h : Describes em y) (k : Nat) :
    Describes (em >>> k) (y / 2 ^ k) := by
  change Describes (k.repeat ExtendedMantissa.shiftRightOne em) _
  induction k with
  | zero => simpa [Nat.repeat] using h
  | succ k ih =>
    rw [Nat.repeat, pow_succ, ← div_div]
    exact describes_shiftRightOne ih

/-- The numbers that are rounded to `m`: those within one half, and at one half when `m` is even. -/
structure RoundsTo (y : ℚ) (m : Nat) : Prop where
  low : (m : ℚ) - 1 / 2 ≤ y
  high : y ≤ m + 1 / 2
  tie : y = m - 1 / 2 ∨ y = m + 1 / 2 → m % 2 = 0

private theorem roundsTo_roundedMantissa {em : ExtendedMantissa} {y : ℚ} (h : Describes em y) :
    RoundsTo y em.roundedMantissa := by
  obtain ⟨n, r, s⟩ := em
  cases r <;> cases s <;> simp only [Describes] at h
  case false.false =>
    change RoundsTo y n
    exact ⟨by linarith, by linarith, by rintro (h' | h') <;> linarith⟩
  case false.true =>
    change RoundsTo y n
    exact ⟨by linarith, by linarith, by rintro (h' | h') <;> linarith⟩
  case true.false =>
    change RoundsTo y (n + n % 2)
    rcases Nat.mod_two_eq_zero_or_one n with h2 | h2
    · rw [h2]
      exact ⟨by push_cast; linarith, by push_cast; linarith, fun _ => h2⟩
    · rw [h2]
      exact ⟨by push_cast; linarith, by push_cast; linarith, fun _ => by omega⟩
  case true.true =>
    change RoundsTo y (n + 1)
    refine ⟨by push_cast; linarith, by push_cast; linarith, ?_⟩
    push_cast
    rintro (h' | h') <;> linarith

/-- Rounding keeps the order. Two numbers on the same halfway point go to its even side. -/
theorem RoundsTo.mono {y z : ℚ} {m n : Nat} (hy : RoundsTo y m) (hz : RoundsTo z n) (h : y ≤ z) :
    m ≤ n := by
  obtain ⟨hlow, -, htie⟩ := hy
  obtain ⟨-, hhigh, htie'⟩ := hz
  by_contra hlt
  have hcast : (n : ℚ) + 1 ≤ m := by exact_mod_cast not_le.1 hlt
  have hm : m % 2 = 0 := htie (.inl (by linarith))
  have hn : n % 2 = 0 := htie' (.inr (by linarith))
  have heq : m = n + 1 := by
    have heq' : (m : ℚ) = (n + 1 : Nat) := by push_cast; linarith
    exact_mod_cast heq'
  omega

theorem roundsTo_natCast (n : Nat) : RoundsTo n n :=
  ⟨by linarith, by linarith, by rintro (h | h) <;> linarith⟩

private theorem roundedMantissa_eq {em : ExtendedMantissa} {y : ℚ} {m : Nat} (h : Describes em y)
    (hy : RoundsTo y m) : em.roundedMantissa = m :=
  Nat.le_antisymm ((roundsTo_roundedMantissa h).mono hy le_rfl)
    (hy.mono (roundsTo_roundedMantissa h) le_rfl)

theorem describes_natCast (n : Nat) : Describes (.ofMantissaAndAccuracy n .exact) (n : ℚ) := rfl

/-- The lower end of a cell, in quarters of the last place. Below a power of two the cell reaches
only half as far. -/
def lowEnd (m : Nat) (e : Int) : Nat :=
  if m = 4503599627370496 ∧ -1074 < e then 4 * m - 1 else 4 * m - 2

/-- The positive numbers that are rounded to the double `m * 2 ^ e`. -/
structure Cell (m : Nat) (e : Int) (v : ℚ) : Prop where
  low : lowEnd m e * 2 ^ (e - 2) ≤ v
  high : v ≤ (4 * m + 2 : Nat) * 2 ^ (e - 2)
  tie : v = lowEnd m e * 2 ^ (e - 2) ∨ v = (4 * m + 2 : Nat) * 2 ^ (e - 2) → m % 2 = 0

section

variable {v : ℚ} {s : Sign} {n m : Nat} {e f t : Int} {acc : Accuracy}

theorem lowEnd_mem (m : Nat) (e : Int) : 4 * m - 2 ≤ lowEnd m e ∧ lowEnd m e ≤ 4 * m - 1 := by
  rw [lowEnd]
  split <;> omega

theorem two_zpow_eq (k : Nat) {a b : Int} (h : a = k + b) : (2 : ℚ) ^ a = 2 ^ k * 2 ^ b := by
  rw [h, zpow_add₀ two_ne_zero, zpow_natCast]

/-- Where the mantissas of a grid end. -/
theorem two_zpow_add_53 (t : Int) : (2 : ℚ) ^ (t + 53) = (9007199254740992 : Nat) * 2 ^ t := by
  rw [two_zpow_eq 53 (add_comm t 53)]
  norm_num

/-- Where the mantissas with all bits start. -/
theorem two_zpow_add_52 (t : Int) : (2 : ℚ) ^ (t + 52) = (4503599627370496 : Nat) * 2 ^ t := by
  rw [two_zpow_eq 52 (add_comm t 52)]
  norm_num

private theorem lowEnd_ge (hm : 0 < m) (e : Int) : (4 * m - 2 : ℚ) ≤ lowEnd m e := by
  have h : ((4 * m - 2 : Nat) : ℚ) ≤ lowEnd m e := Nat.cast_le.2 (lowEnd_mem m e).1
  rwa [Nat.cast_sub (by omega), Nat.cast_mul] at h

/-- At the exponent of the double a number of its cell is rounded to its mantissa. -/
private theorem Cell.roundsTo (hm : 0 < m) (hcell : Cell m e v) : RoundsTo (v / 2 ^ e) m := by
  obtain ⟨hlow, hhigh, htie⟩ := hcell
  have hp : (0 : ℚ) < 2 ^ (e - 2) := zpow_pos two_pos _
  have h4 : (2 : ℚ) ^ e = 2 ^ 2 * 2 ^ (e - 2) := two_zpow_eq 2 (by omega)
  have hmul := mul_le_mul_of_nonneg_right (lowEnd_ge hm e) hp.le
  push_cast at hhigh htie
  refine ⟨?_, ?_, ?_⟩
  · rw [h4, le_div_iff₀ (by positivity)]
    linarith
  · rw [h4, div_le_iff₀ (by positivity)]
    linarith
  · rw [h4, div_eq_iff (by positivity), div_eq_iff (by positivity)]
    rintro (h | h)
    · exact htie (.inl (le_antisymm (by linarith) hlow))
    · exact htie (.inr (by linarith))

/-- A number of the cell that has no 53 bits at the double's exponent lies below a power of two.
One exponent further down it is rounded up to that power. -/
private theorem Cell.roundsTo_below (hm : 0 < m) (hfits : Fits (.finite s m e hm))
    (hcell : Cell m e v) (ht : -1074 ≤ t) (hlt : t < e) (hv : v < 2 ^ (t + 53)) :
    t = e - 1 ∧ m = 4503599627370496 ∧ RoundsTo (v / 2 ^ t) 9007199254740992 := by
  obtain ⟨hlow, -, -⟩ := hcell
  obtain ⟨hmlt, he, he', hc⟩ := hfits
  obtain ⟨hl₁, hl₂⟩ := lowEnd_mem m e
  have hp : (0 : ℚ) < 2 ^ (e - 2) := zpow_pos two_pos _
  -- Only the cell of a power of two reaches so far down.
  have hm' : m = 4503599627370496 := by
    have hv' : v < 2 ^ 54 * 2 ^ (e - 2) := by
      rw [← two_zpow_eq 54 (a := e + 52) (by omega)]
      exact hv.trans_le (zpow_le_zpow_right₀ one_le_two (by omega))
    have h : (lowEnd m e : ℚ) < 2 ^ 54 := lt_of_mul_lt_mul_right (hlow.trans_lt hv') hp.le
    have h' : lowEnd m e < 2 ^ 54 := by exact_mod_cast h
    omega
  have hl : lowEnd m e = 18014398509481983 := by rw [lowEnd, if_pos ⟨hm', by omega⟩, hm']
  rw [hl] at hlow
  have hte : t = e - 1 := by
    by_contra hne
    have hv' : v < 2 ^ 53 * 2 ^ (e - 2) := by
      rw [← two_zpow_eq 53 (a := e + 51) (by omega)]
      exact hv.trans_le (zpow_le_zpow_right₀ one_le_two (by omega))
    have h := lt_of_mul_lt_mul_right (hlow.trans_lt hv') hp.le
    norm_num at h
  have h2 : (2 : ℚ) ^ t = 2 ^ 1 * 2 ^ (e - 2) := two_zpow_eq 1 (by omega)
  have h53 : (2 : ℚ) ^ (t + 53) = 2 ^ 54 * 2 ^ (e - 2) := two_zpow_eq 54 (by omega)
  refine ⟨hte, hm', ?_, ?_, fun _ => rfl⟩
  · rw [h2, le_div_iff₀ (by positivity)]
    push_cast at hlow ⊢
    linarith
  · rw [h2, div_le_iff₀ (by positivity)]
    rw [h53] at hv
    push_cast
    linarith

/-- A number is known up to its last bit: it lies on its mantissa, at its exponent, or above. -/
private theorem mem_of_describes (hd : Describes (.ofMantissaAndAccuracy n acc) (v / 2 ^ f)) :
    n * 2 ^ f ≤ v ∧ v < (n + 1) * 2 ^ f := by
  have hp : (0 : ℚ) < 2 ^ f := zpow_pos two_pos _
  have hn : (ExtendedMantissa.ofMantissaAndAccuracy n acc).mantissa = n := by
    cases acc with
    | exact => rfl
    | inexact o => cases o <;> rfl
  have h := hd.floor
  rwa [hn, le_div_iff₀ hp, div_lt_iff₀ hp] at h

private theorem lt_of_target (hd : Describes (.ofMantissaAndAccuracy n acc) (v / 2 ^ f))
    (ht : t = max (n.log2 + 1 + f - 53) (-1074)) : v < 2 ^ (t + 53) := by
  have hp : (0 : ℚ) < 2 ^ f := zpow_pos two_pos _
  have hlog : ((n + 1 : Nat) : ℚ) ≤ (2 ^ (n.log2 + 1) : Nat) := Nat.cast_le.2 Nat.lt_log2_self
  push_cast at hlog
  calc v < (n + 1) * 2 ^ f := (mem_of_describes hd).2
    _ ≤ 2 ^ (n.log2 + 1) * 2 ^ f := mul_le_mul_of_nonneg_right hlog hp.le
    _ = 2 ^ ((n.log2 : Int) + 1 + f) := (two_zpow_eq (n.log2 + 1) (by push_cast; ring)).symm
    _ ≤ 2 ^ (t + 53) := zpow_le_zpow_right₀ one_le_two (by omega)

private theorem target_le (hd : Describes (.ofMantissaAndAccuracy n acc) (v / 2 ^ f))
    (ht : t = max (n.log2 + 1 + f - 53) (-1074)) (hf : f ≤ t)
    (hm : 0 < m) (hfits : Fits (.finite s m e hm)) (hcell : Cell m e v) : t ≤ e := by
  obtain ⟨hmlt, he, -, -⟩ := hfits
  rcases Nat.eq_zero_or_pos n with rfl | hn
  · rw [Nat.log2_zero] at ht
    omega
  · by_contra hlt
    have hp : (0 : ℚ) < 2 ^ (e - 2) := zpow_pos two_pos _
    have hlog : ((2 ^ n.log2 : Nat) : ℚ) ≤ n := Nat.cast_le.2 (Nat.log2_self_le hn.ne')
    have hm' : ((4 * m + 2 : Nat) : ℚ) < 2 ^ 55 := by
      have h : 4 * m + 2 < 2 ^ 55 := by omega
      exact_mod_cast h
    have hv : v < v :=
      calc v ≤ (4 * m + 2 : Nat) * 2 ^ (e - 2) := hcell.high
        _ < 2 ^ 55 * 2 ^ (e - 2) := mul_lt_mul_of_pos_right hm' hp
        _ = 2 ^ (e + 53) := (two_zpow_eq 55 (by omega)).symm
        _ ≤ 2 ^ (n.log2 + f) := zpow_le_zpow_right₀ one_le_two (by omega)
        _ = (2 ^ n.log2 : Nat) * 2 ^ f := by
          rw [Nat.cast_pow, Nat.cast_ofNat]
          exact two_zpow_eq n.log2 rfl
        _ ≤ n * 2 ^ f := mul_le_mul_of_nonneg_right hlog (zpow_pos two_pos _).le
        _ ≤ v := (mem_of_describes hd).1
    exact lt_irrefl v hv

/-- The first shift keeps the number. -/
private theorem describes_target (hd : Describes (.ofMantissaAndAccuracy n acc) (v / 2 ^ f))
    (ht : t = max (n.log2 + 1 + f - 53) (-1074)) (hf : f ≤ t) :
    ∃ em, shiftToTargetExponent .binary64 n f acc = (em, t) ∧ Describes em (v / 2 ^ t) := by
  have hk : f + ((t - f).toNat : Int) = t := by omega
  refine ⟨ExtendedMantissa.ofMantissaAndAccuracy n acc >>> (t - f).toNat, ?_, ?_⟩
  · rw [shiftToTargetExponent, targetExponent_eq, ← ht, shiftToExponent, hk]
  · have h := describes_shiftRight hd (t - f).toNat
    rwa [div_div, ← zpow_natCast, ← zpow_add₀ two_ne_zero, hk] at h

private theorem shift_small {r : Nat} (hr : r < 9007199254740992) (ht : -1074 ≤ t) :
    shiftToTargetExponent .binary64 r t .exact = (⟨r, false, false⟩, t) := by
  refine shiftToTargetExponent_self ?_
  rw [targetExponent_eq]
  rcases Nat.eq_zero_or_pos r with rfl | hpos
  · rw [Nat.log2_zero]
    omega
  · have hlog : r.log2 < 53 := (Nat.log2_lt hpos.ne').2 hr
    omega

/-- A mantissa that rounding carried to 54 bits is shifted back. -/
private theorem shift_carry (ht : -1074 ≤ t) :
    shiftToTargetExponent .binary64 9007199254740992 t .exact =
      (⟨4503599627370496, false, false⟩, t + 1) := by
  have hlog : Nat.log2 9007199254740992 = 53 := by decide +kernel
  have hk : (max ((53 : Nat) + 1 + t - 53) (-1074) - t).toNat = 1 := by omega
  rw [shiftToTargetExponent, targetExponent_eq, hlog, shiftToExponent, hk]
  rfl

private theorem roundWithAccuracy_of_shifts {em : ExtendedMantissa}
    (hfirst : shiftToTargetExponent .binary64 n f acc = (em, t))
    (hlast : shiftToTargetExponent .binary64 em.roundedMantissa t .exact = (⟨m, false, false⟩, e))
    (hm : 0 < m) : roundWithAccuracy .binary64 s n f acc = .finite s m e hm := by
  simp only [roundWithAccuracy, hfirst, hlast]
  rw [dif_neg hm.ne']

/-- A number that is described well enough is rounded to the double in whose cell it lies. -/
theorem roundWithAccuracy_eq (hm : 0 < m)
    (hd : Describes (.ofMantissaAndAccuracy n acc) (v / 2 ^ f))
    (hf : f ≤ max (n.log2 + 1 + f - 53) (-1074)) (hfits : Fits (.finite s m e hm))
    (hcell : Cell m e v) :
    roundWithAccuracy .binary64 s n f acc = .finite s m e hm := by
  obtain ⟨t, ht⟩ : ∃ t, t = max ((n.log2 : Int) + 1 + f - 53) (-1074) := ⟨_, rfl⟩
  rw [← ht] at hf
  obtain ⟨em, hfirst, hem⟩ := describes_target hd ht hf
  have hte := target_le hd ht hf hm hfits hcell
  refine roundWithAccuracy_of_shifts hfirst ?_ hm
  -- Rounding below the double's exponent carries, and the second shift makes up for it.
  rcases Int.lt_or_eq_of_le hte with hlt | rfl
  · obtain ⟨rfl, rfl, hr⟩ :=
      hcell.roundsTo_below hm hfits (by omega) hlt (lt_of_target hd ht)
    rw [roundedMantissa_eq hem hr, shift_carry (by omega), Int.sub_add_cancel]
  · rw [roundedMantissa_eq hem (hcell.roundsTo hm), shift_small hfits.1 hfits.2.1]

/-- What a number that is not negative is rounded to: `r` places of the grid `2 ^ t`, on which it
takes 53 bits, or fewer on the finest grid of all. -/
structure Nearest (v : ℚ) (r : Nat) (t : Int) : Prop where
  nonneg : 0 ≤ v
  least : -1074 ≤ t
  room : v < 2 ^ (t + 53)
  full : t = -1074 ∨ 2 ^ (t + 52) ≤ v
  rounds : RoundsTo (v / 2 ^ t) r

namespace Nearest

variable {r : Nat}

theorem le_two_pow (h : Nearest v r t) : r ≤ 9007199254740992 := by
  have hp : (0 : ℚ) < 2 ^ t := zpow_pos two_pos _
  have hv : v / 2 ^ t ≤ (9007199254740992 : Nat) := by
    rw [div_le_iff₀ hp, ← two_zpow_add_53]
    exact h.room.le
  exact h.rounds.mono (roundsTo_natCast _) hv

theorem two_pow_le (h : Nearest v r t) (hv : 2 ^ (t + 52) ≤ v) : 4503599627370496 ≤ r := by
  have hp : (0 : ℚ) < 2 ^ t := zpow_pos two_pos _
  have hv' : (4503599627370496 : Nat) ≤ v / 2 ^ t := by
    rwa [le_div_iff₀ hp, ← two_zpow_add_52]
  exact (roundsTo_natCast _).mono h.rounds hv'

end Nearest

/-- What rounding makes of a number: a zero, a mantissa of 53 bits, or, if it carries, the power of
two above them. -/
theorem roundWithAccuracy_cases (hd : Describes (.ofMantissaAndAccuracy n acc) (v / 2 ^ f))
    (hf : f ≤ max (n.log2 + 1 + f - 53) (-1074)) (s : Sign) :
    ∃ r t, Nearest v r t ∧
      ((r = 0 ∧ roundWithAccuracy .binary64 s n f acc = .zero s) ∨
      (∃ hr : 0 < r, r < 9007199254740992 ∧
        roundWithAccuracy .binary64 s n f acc = .finite s r t hr) ∨
      (r = 9007199254740992 ∧
        roundWithAccuracy .binary64 s n f acc =
          .finite s 4503599627370496 (t + 1) (by decide))) := by
  obtain ⟨t, ht⟩ : ∃ t, t = max ((n.log2 : Int) + 1 + f - 53) (-1074) := ⟨_, rfl⟩
  rw [← ht] at hf
  obtain ⟨em, hfirst, hem⟩ := describes_target hd ht hf
  have hmem := (mem_of_describes hd).1
  have hp : (0 : ℚ) < 2 ^ f := zpow_pos two_pos _
  have hnear : Nearest v em.roundedMantissa t := by
    refine ⟨le_trans (by positivity) hmem, by omega, lt_of_target hd ht, ?_,
      roundsTo_roundedMantissa hem⟩
    rcases Int.lt_or_eq_of_le (show -1074 ≤ t by omega) with hlt | heq
    · -- Above the finest grid the mantissa is not zero, and its top bit is on place.
      have hn : n ≠ 0 := by
        rintro rfl
        rw [Nat.log2_zero] at ht
        omega
      have hlog : ((2 ^ n.log2 : Nat) : ℚ) ≤ n := Nat.cast_le.2 (Nat.log2_self_le hn)
      refine .inr (le_trans ?_ hmem)
      rw [two_zpow_eq n.log2 (show t + 52 = n.log2 + f by omega)]
      push_cast at hlog
      exact mul_le_mul_of_nonneg_right hlog hp.le
    · exact .inl heq.symm
  refine ⟨em.roundedMantissa, t, hnear, ?_⟩
  rcases Nat.lt_or_eq_of_le hnear.le_two_pow with hlt | heq
  · have hlast := shift_small hlt hnear.least
    rcases Nat.eq_zero_or_pos em.roundedMantissa with h0 | hpos
    · refine .inl ⟨h0, ?_⟩
      rw [h0] at hlast
      simp only [roundWithAccuracy, hfirst, h0, hlast, dite_true]
    · exact .inr (.inl ⟨hpos, hlt, roundWithAccuracy_of_shifts hfirst hlast hpos⟩)
  · have hlast := heq ▸ shift_carry hnear.least
    exact .inr (.inr ⟨heq, roundWithAccuracy_of_shifts hfirst hlast (by decide)⟩)

/-- A number that is not too large is rounded to a finite double. -/
theorem isFinite_roundWithAccuracy
    (hd : Describes (.ofMantissaAndAccuracy n acc) (v / 2 ^ f))
    (hf : f ≤ max (n.log2 + 1 + f - 53) (-1074)) (hsize : n.log2 + f ≤ 1022) :
    (form (ofForm (roundWithAccuracy .binary64 s n f acc))).isFinite := by
  obtain ⟨r, t, hnear, hcases⟩ := roundWithAccuracy_cases hd hf s
  have ht : t ≤ 970 := by
    have hv : v < 2 ^ (1023 : Int) := by
      refine (lt_of_target hd rfl).trans_le (zpow_le_zpow_right₀ one_le_two ?_)
      omega
    rcases hnear.full with heq | hfull
    · omega
    · have hlt := (zpow_lt_zpow_iff_right₀ (one_lt_two (α := ℚ))).1 (hfull.trans_lt hv)
      omega
  obtain ⟨-, heq⟩ | ⟨hr, -, heq⟩ | ⟨-, heq⟩ := hcases
  · rw [heq, form_ofForm (show Fits (.zero s) from trivial)]
    rfl
  · rw [heq]
    exact isFinite_ofForm (by omega)
  · rw [heq]
    exact isFinite_ofForm (by omega)

/-- A double lies in its own cell. -/
theorem cell_self (hm : 0 < m) (hv : v = m * 2 ^ e) : Cell m e v := by
  have hp : (0 : ℚ) < 2 ^ (e - 2) := zpow_pos two_pos _
  have h4 : (2 : ℚ) ^ e = 2 ^ 2 * 2 ^ (e - 2) := two_zpow_eq 2 (by omega)
  have hv' : v = (4 * m : Nat) * 2 ^ (e - 2) := by
    rw [hv, h4]
    push_cast
    ring
  have hl : (lowEnd m e : ℚ) < (4 * m : Nat) := by
    have h := (lowEnd_mem m e).2
    exact Nat.cast_lt.2 (by omega)
  have hh : ((4 * m : Nat) : ℚ) < (4 * m + 2 : Nat) := Nat.cast_lt.2 (by omega)
  have hlow := mul_lt_mul_of_pos_right hl hp
  have hhigh := mul_lt_mul_of_pos_right hh hp
  rw [hv']
  refine ⟨hlow.le, hhigh.le, ?_⟩
  rintro (h | h)
  · exact absurd h hlow.ne'
  · exact absurd h hhigh.ne

end

end MotionTemplate.Number
