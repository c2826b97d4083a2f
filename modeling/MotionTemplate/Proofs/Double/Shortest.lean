import MotionTemplate.Number.Layout
import MotionTemplate.Proofs.Double.Decimal

/-! The digits chosen for a double lie in its cell: a shortest decimal because it was checked
against the ends of the cell, and the exact value because it is the double itself. -/
namespace MotionTemplate.Number
open Float.Model.UnpackedFloat (Sign)

section

variable {a n : Nat} {i j : Int}

private theorem zpow_mul_pow_toNat {b : ℚ} (hb : b ≠ 0) (z : Int) :
    b ^ z * b ^ (-z).toNat = b ^ z.toNat := by
  rw [← zpow_natCast, ← zpow_natCast, ← zpow_add₀ hb]
  congr 1
  omega

/-- Both sides are scaled by the same positive integer before they are compared. -/
private theorem exists_scale (a n : Nat) (i j : Int) : ∃ c : ℚ, 0 < c ∧
    ((a * tenTo i.toNat * twoTo (-j).toNat : Nat) : ℚ) = (a * 10 ^ i) * c ∧
    ((n * twoTo j.toNat * tenTo (-i).toNat : Nat) : ℚ) = (n * 2 ^ j) * c := by
  refine ⟨10 ^ (-i).toNat * 2 ^ (-j).toNat, by positivity, ?_, ?_⟩
  · have h := zpow_mul_pow_toNat (b := 10) (by norm_num) i
    simp only [tenTo, twoTo, Nat.pow_eq, Nat.cast_mul, Nat.cast_pow, Nat.cast_ofNat, ← h]
    ring
  · have h := zpow_mul_pow_toNat (b := 2) (by norm_num) j
    simp only [tenTo, twoTo, Nat.pow_eq, Nat.cast_mul, Nat.cast_pow, Nat.cast_ofNat, ← h]
    ring

theorem compareScaled_eq_lt : compareScaled a i n j = .lt ↔ (a : ℚ) * 10 ^ i < n * 2 ^ j := by
  obtain ⟨c, hc, ha, hn⟩ := exists_scale a n i j
  rw [compareScaled, Nat.compare_eq_lt, ← Nat.cast_lt (α := ℚ), ha, hn, mul_lt_mul_iff_left₀ hc]

theorem compareScaled_eq_gt : compareScaled a i n j = .gt ↔ (n : ℚ) * 2 ^ j < a * 10 ^ i := by
  obtain ⟨c, hc, ha, hn⟩ := exists_scale a n i j
  rw [compareScaled, Nat.compare_eq_gt, ← Nat.cast_lt (α := ℚ), ha, hn, mul_lt_mul_iff_left₀ hc]

theorem compareScaled_eq_eq : compareScaled a i n j = .eq ↔ (a : ℚ) * 10 ^ i = n * 2 ^ j := by
  obtain ⟨c, hc, ha, hn⟩ := exists_scale a n i j
  rw [compareScaled, Nat.compare_eq_eq, ← Nat.cast_inj (R := ℚ), ha, hn, mul_left_inj' hc.ne']

end

section

variable {m : Nat} {e : Int} {d : Decimal}

theorem cell_of_readsBack (h : (binaryOf m e).readsBack d) : Cell m e d.value := by
  have hlow : (if (binaryOf m e).narrow then 4 * m - 1 else 4 * m - 2) = lowEnd m e := by
    simp [lowEnd, binaryOf, twoTo]
  simp only [Binary.readsBack, show (binaryOf m e).mantissa = m from rfl,
    show (binaryOf m e).exponent = e from rfl, hlow, Bool.and_eq_true, Bool.or_eq_true,
    beq_iff_eq, compareScaled_eq_lt, compareScaled_eq_gt, compareScaled_eq_eq] at h
  obtain ⟨hbelow, habove⟩ := h
  refine ⟨?_, ?_, ?_⟩
  · rcases hbelow with h | h
    · exact h.le
    · exact h.2.ge
  · rcases habove with h | h
    · exact h.le
    · exact h.2.le
  · rintro (h | h)
    · rcases hbelow with h' | h'
      · exact absurd h h'.ne'
      · exact h'.1
    · rcases habove with h' | h'
      · exact absurd h h'.ne
      · exact h'.1

theorem value_strip (fuel : Nat) (d : Decimal) : (d.strip fuel).value = d.value := by
  induction fuel generalizing d with
  | zero => rfl
  | succ fuel ih =>
    rw [Decimal.strip]
    split
    · next h =>
      have hdiv : d.digits = d.digits / 10 * 10 := by
        have h' := beq_iff_eq.1 h
        omega
      rw [ih, Decimal.value, Decimal.value, zpow_add₀ (by norm_num), zpow_one]
      conv_rhs => rw [hdiv]
      push_cast
      ring
    · rfl

private theorem readsBack_of_onGrid? {x : Binary} {tie : Tie} {place : Int}
    (h : x.onGrid? tie place = some d) : x.readsBack d := by
  simp only [Binary.onGrid?] at h
  split at h
  · exact nomatch h
  · next hd _ => exact Option.some.inj h ▸ hd
  · next _ hu => exact Option.some.inj h ▸ hu
  · next hd hu =>
    split at h
    · exact Option.some.inj h ▸ hd
    · exact Option.some.inj h ▸ hu
    · exact Option.some.inj h ▸ hu
    · split at h
      · exact Option.some.inj h ▸ hd
      · exact Option.some.inj h ▸ hu

private theorem value_exact (m : Nat) (e : Int) :
    Decimal.value ⟨m * twoTo e.toNat * Nat.pow 5 (-e).toNat, min e 0⟩ = m * 2 ^ e := by
  simp only [Decimal.value, twoTo, Nat.pow_eq, Nat.cast_mul, Nat.cast_pow, Nat.cast_ofNat]
  rcases Int.le_total 0 e with he | he
  · obtain ⟨k, rfl⟩ := Int.eq_ofNat_of_zero_le he
    rw [min_eq_right he, show (-(k : Int)).toNat = 0 by omega, Int.toNat_natCast, zpow_natCast]
    ring
  · obtain ⟨k, rfl⟩ : ∃ k : Nat, e = -k := ⟨(-e).toNat, by omega⟩
    have h10 : (10 : ℚ) ^ k = 2 ^ k * 5 ^ k := by rw [← mul_pow]; norm_num
    rw [min_eq_left he, neg_neg, show (-(k : Int)).toNat = 0 by omega, Int.toNat_natCast, zpow_neg,
      zpow_neg, zpow_natCast, zpow_natCast, h10]
    field_simp

/-- The shortest digits of a double are read as the double. -/
theorem cell_shortest (hm : 0 < m) (tie : Tie) : Cell m e ((binaryOf m e).shortest tie).value := by
  -- the search is named before the match on it is opened, which would run it
  delta Binary.shortest
  dsimp -iota only
  generalize (binaryOf m e).scale = scale
  generalize hfound : List.findSome? _ (List.range 17) = found
  cases found with
  | some d =>
    obtain ⟨n, -, hn⟩ := List.exists_of_findSome?_eq_some hfound
    change Cell m e (d.strip 18).value
    rw [value_strip]
    exact cell_of_readsBack (readsBack_of_onGrid? hn)
  | none => exact cell_self hm (value_exact m e)

end

end MotionTemplate.Number
