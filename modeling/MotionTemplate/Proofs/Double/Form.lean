import Mathlib
import MotionTemplate.Number.Measure

/-! Doubles through their unpacked forms. What a double unpacks to fits its format, and a form that
fits survives packing. -/
namespace MotionTemplate.Number
open Float.Model (UnpackedFloat Format)
open Float.Model.UnpackedFloat

/-- The forms that doubles unpack to: a mantissa of 53 bits, which has its top bit set unless the
exponent is the least one. -/
def Fits : UnpackedFloat → Prop
  | .finite _ m e _ =>
    m < 9007199254740992 ∧ -1074 ≤ e ∧ e ≤ 971 ∧ (4503599627370496 ≤ m ∨ e = -1074)
  | _ => True

/-- The forms of a sign. An undefined value has none. -/
def HasSign (s : Sign) : UnpackedFloat → Prop
  | .infinity t | .zero t | .finite t .. => t = s
  | .notANumber => False

theorem isNaN_of_hasSign {s : Sign} {u : UnpackedFloat} (h : HasSign s u) : u.isNaN = false := by
  cases u with
  | notANumber => exact h.elim
  | infinity | zero | finite => rfl

private theorem toNat_with_top_bit (m : BitVec 52) :
    (1#1 ++ m).toNat = 4503599627370496 + m.toNat := by
  have h := Nat.two_pow_add_eq_or_of_lt m.isLt 1
  simp only [BitVec.toNat_append, Nat.shiftLeft_eq]
  rw [Nat.mul_comm, show (1#1).toNat = 1 from rfl, ← h]

/-- The form that the fields of a packed double stand for. -/
def ofFields (s : Sign) (e : BitVec 11) (m : BitVec 52) : UnpackedFloat :=
  if e = -1#11 then
    if m = 0#52 then .infinity s else .notANumber
  else if e = 0#11 then
    if h : m = 0#52 then .zero s
    else .finite s m.toNat ((e.toNat : Int) - 1075 + 1)
      (by simpa [BitVec.toNat_pos, BitVec.pos_iff_ne_zero])
  else .finite s (1#1 ++ m).toNat ((e.toNat : Int) - 1075)
    (by rw [toNat_with_top_bit]; omega)

theorem fits_ofFields (s : Sign) (e : BitVec 11) (m : BitVec 52) : Fits (ofFields s e m) := by
  have hm := m.isLt
  have he := e.isLt
  unfold ofFields
  split
  · split <;> trivial
  · next hi =>
    split
    · next hz =>
      split
      · trivial
      · simp only [Fits, hz, BitVec.toNat_zero]
        omega
    · next hz =>
      rw [← BitVec.toNat_inj, BitVec.neg_one_eq_allOnes, BitVec.toNat_allOnes] at hi
      rw [← BitVec.toNat_inj, BitVec.toNat_zero] at hz
      simp only [Fits, toNat_with_top_bit]
      omega

private theorem unpack_packComponents (s : Sign) (e : BitVec 11) (m : BitVec 52) :
    unpack .binary64 (packComponents .binary64 s e m) = ofFields s e m := by
  simp only [unpack, unpackMantissa_packComponents, unpackExponent_packComponents,
    unpackSign_packComponents, Sign.ofBitVec_toBitVec]
  rfl

/-- A double in its unpacked form. -/
def form (x : Float) : UnpackedFloat := x.toModel.unpack

theorem fits_form (x : Float) : Fits (form x) := fits_ofFields _ _ _

/-- The double that an unpacked form is packed into. -/
def ofForm (u : UnpackedFloat) : Float := .ofModel (.pack u)

private theorem form_ofForm_eq (u : UnpackedFloat) :
    form (ofForm u) = unpack .binary64 (pack .binary64 u) := rfl

/-- A form packs to the fields of infinity when its exponent is too large, and else to its own
exponent, or to the least one, and the low bits of its mantissa. -/
private theorem pack_finite (s : Sign) (m : Nat) (e : Int) (h : 0 < m) :
    pack .binary64 (.finite s m e h) =
      if 2048 ≤ (e + 1075).toNat + 1 then packedInfinity .binary64 s
      else if m.log2 = 52 then
        packComponents .binary64 s (.ofNat 11 (e + 1075).toNat) (.ofNat 52 m)
      else packComponents .binary64 s 0#11 (.ofNat 52 m) := by
  have hb : (e + (Format.binary64.exponentBias : Nat) + (52 : Nat)).toNat = (e + 1075).toNat := by
    rw [show Format.binary64.exponentBias = 1023 from rfl]
    congr 1
    omega
  have hl : m.log2 + 1 = Format.binary64.mantissaBits ↔ m.log2 = 52 := by
    simp [Format.mantissaBits]
  rw [pack, hb]
  simp only [hl]

private theorem form_ofForm_finite (s : Sign) (m : Nat) (e : Int) (h : 0 < m) :
    form (ofForm (.finite s m e h)) =
      if 2048 ≤ (e + 1075).toNat + 1 then .infinity s
      else if m.log2 = 52 then ofFields s (.ofNat 11 (e + 1075).toNat) (.ofNat 52 m)
      else ofFields s 0#11 (.ofNat 52 m) := by
  rw [form_ofForm_eq, pack_finite]
  split
  · exact unpack_packComponents s _ _
  · split
    · exact unpack_packComponents s _ _
    · exact unpack_packComponents s _ _

theorem form_ofForm_of_large {s : Sign} {m : Nat} {e : Int} {h : 0 < m} (he : 971 < e) :
    form (ofForm (.finite s m e h)) = .infinity s := by
  rw [form_ofForm_finite, if_pos (by omega)]

private theorem ofFields_normal (s : Sign) {m k : Nat} (hm : 0 < m) (hlo : 4503599627370496 ≤ m)
    (hhi : m < 9007199254740992) (hk : 1 ≤ k) (hk' : k ≤ 2046) :
    ofFields s (.ofNat 11 k) (.ofNat 52 m) = .finite s m ((k : Int) - 1075) hm := by
  have he : (BitVec.ofNat 11 k).toNat = k := by
    rw [BitVec.toNat_ofNat]
    omega
  have hi : BitVec.ofNat 11 k ≠ -1#11 := by
    rw [ne_eq, ← BitVec.toNat_inj, he, BitVec.neg_one_eq_allOnes, BitVec.toNat_allOnes]
    omega
  have hz : BitVec.ofNat 11 k ≠ 0#11 := by
    rw [ne_eq, ← BitVec.toNat_inj, he, BitVec.toNat_zero]
    omega
  rw [ofFields, if_neg hi, if_neg hz]
  congr 1
  · rw [toNat_with_top_bit, BitVec.toNat_ofNat]
    omega
  · rw [he]

private theorem ofFields_subnormal (s : Sign) {m : Nat} (hm : 0 < m)
    (hhi : m < 4503599627370496) :
    ofFields s 0#11 (.ofNat 52 m) = .finite s m (-1074) hm := by
  have he : (BitVec.ofNat 52 m).toNat = m := by
    rw [BitVec.toNat_ofNat]
    omega
  have hz : BitVec.ofNat 52 m ≠ 0#52 := by
    rw [ne_eq, ← BitVec.toNat_inj, he, BitVec.toNat_zero]
    omega
  rw [ofFields, if_neg (by decide), if_pos rfl, dif_neg hz]
  congr 1

theorem form_ofForm {u : UnpackedFloat} (h : Fits u) : form (ofForm u) = u := by
  cases u with
  | infinity s => exact unpack_packComponents s _ _
  | notANumber => rfl
  | zero s => exact unpack_packComponents s _ _
  | finite s m e hm =>
    obtain ⟨hlt, hlo, hhi, hc⟩ := h
    rw [form_ofForm_finite, if_neg (by omega)]
    by_cases hn : 4503599627370496 ≤ m
    · have hl : m.log2 = 52 := (Nat.log2_eq_iff (Nat.ne_of_gt hm)).2 ⟨hn, hlt⟩
      rw [if_pos hl, ofFields_normal s hm hn hlt (by omega) (by omega)]
      congr 1
      omega
    · obtain rfl : e = -1074 := hc.resolve_left hn
      have hl : m.log2 ≠ 52 := fun hl => hn ((Nat.log2_eq_iff (Nat.ne_of_gt hm)).1 hl).1
      rw [if_neg hl, ofFields_subnormal s hm (by omega)]

private theorem isFinite_ofFields {e : BitVec 11} (s : Sign) (m : BitVec 52) (h : e ≠ -1#11) :
    (ofFields s e m).isFinite := by
  rw [ofFields, if_neg h]
  split
  · split <;> rfl
  · rfl

/-- Only an exponent that is too large packs to an infinity. -/
theorem isFinite_ofForm {s : Sign} {m : Nat} {e : Int} {h : 0 < m} (he : e ≤ 971) :
    (form (ofForm (.finite s m e h))).isFinite := by
  rw [form_ofForm_finite, if_neg (by omega)]
  split
  · refine isFinite_ofFields s _ ?_
    rw [ne_eq, ← BitVec.toNat_inj, BitVec.toNat_ofNat, BitVec.neg_one_eq_allOnes,
      BitVec.toNat_allOnes]
    omega
  · exact isFinite_ofFields s _ (by decide)

private theorem pack_ofFields {s : Sign} {e : BitVec 11} {m : BitVec 52}
    (h : (ofFields s e m).isNaN = false) :
    pack .binary64 (ofFields s e m) = packComponents .binary64 s e m := by
  have he := e.isLt
  have hm := m.isLt
  unfold ofFields at h ⊢
  split
  · next hi =>
    rw [if_pos hi] at h
    split
    · next hz =>
      rw [hi, hz]
      rfl
    · next hz =>
      rw [if_neg hz] at h
      exact nomatch h
  · next hi =>
    have hi' : e.toNat ≠ 2047 := by
      rw [← BitVec.toNat_inj, BitVec.neg_one_eq_allOnes, BitVec.toNat_allOnes] at hi
      omega
    split
    · next hz =>
      split
      · next hm0 =>
        rw [hz, hm0]
        rfl
      · next hm0 =>
        have hl : m.toNat.log2 ≠ 52 := by
          intro hl
          have hpos : m.toNat ≠ 0 := fun h0 => hm0 (BitVec.toNat_inj.1 h0)
          have := ((Nat.log2_eq_iff hpos).1 hl).1
          omega
        rw [pack_finite, if_neg (by rw [hz, BitVec.toNat_zero]; omega), if_neg hl, hz,
          BitVec.ofNat_toNat, BitVec.setWidth_eq]
    · next hz =>
      have hl : (1#1 ++ m).toNat.log2 = 52 := by
        rw [toNat_with_top_bit, Nat.log2_eq_iff (by omega)]
        omega
      rw [pack_finite, if_neg (by omega), if_pos hl, toNat_with_top_bit]
      congr 1
      · rw [show ((e.toNat : Int) - 1075 + 1075).toNat = e.toNat by omega, BitVec.ofNat_toNat,
          BitVec.setWidth_eq]
      · rw [← BitVec.toNat_inj, BitVec.toNat_ofNat]
        omega

private theorem packComponents_unpack (b : BitVec Format.binary64.numBits) :
    packComponents .binary64 (.ofBitVec (unpackSign b)) (unpackExponent b) (unpackMantissa b) =
      b := by
  have hs : ∀ v : BitVec 1, (Sign.ofBitVec v).toBitVec = v := by decide
  rw [packComponents, hs]
  apply BitVec.eq_of_getLsbD_eq
  intro i hi
  change i < 64 at hi
  simp only [BitVec.getLsbD_append, unpackSign, unpackExponent, unpackMantissa, BitVec.getLsbD_cast,
    BitVec.getLsbD_extractLsb]
  rcases Nat.lt_or_ge i 52 with h | h
  · simp [h]
  · rcases Nat.lt_or_ge i 63 with h' | h'
    · rw [if_neg (by omega), if_pos (by omega), show 52 + (i - 52) = i by omega,
        decide_eq_true (by omega), Bool.true_and]
    · obtain rfl : i = 63 := by omega
      rfl

/-- An undefined value is packed in one way only. -/
private theorem pack_of_isNaN {b : BitVec Format.binary64.numBits}
    (valid : Format.binary64.Valid b) (h : (unpack .binary64 b).isNaN) :
    pack .binary64 (unpack .binary64 b) = b := by
  change (ofFields _ (unpackExponent b) (unpackMantissa b)).isNaN at h
  change pack .binary64 (ofFields _ (unpackExponent b) (unpackMantissa b)) = b
  unfold ofFields at h ⊢
  split at h
  · next he =>
    split at h
    · exact nomatch h
    · next hm =>
      rw [if_pos he, if_neg hm]
      exact (valid.eq_packedNaN he hm).symm
  · split at h
    · split at h <;> exact nomatch h
    · exact nomatch h

/-- Packing undoes unpacking. -/
theorem ofForm_form (x : Float) : ofForm (form x) = x := by
  obtain ⟨bits, valid⟩ := x
  have hp : pack .binary64 (unpack .binary64 bits.toBitVec) = bits.toBitVec := by
    cases h : (unpack .binary64 bits.toBitVec).isNaN with
    | true => exact pack_of_isNaN valid h
    | false => exact (pack_ofFields h).trans (packComponents_unpack _)
  rw [form, ofForm]
  congr 1
  simp only [Float.Model.pack, Float.Model.unpack, hp, UInt64.ofBitVec_toBitVec]

theorem form_injective {x y : Float} (h : form x = form y) : x = y := by
  rw [← ofForm_form x, h, ofForm_form y]

theorem form_neg (x : Float) : form (-x) = (form x).neg := by
  have hf := fits_form x
  change form (ofForm (form x).neg) = _
  cases hx : form x with
  | finite s m e hm =>
    rw [hx] at hf
    exact form_ofForm (show Fits (.finite (-s) m e hm) from hf)
  | notANumber | infinity | zero => exact form_ofForm trivial

private theorem hasSign_ofFields {e : BitVec 11} (s : Sign) (m : BitVec 52) (h : e ≠ -1#11) :
    HasSign s (ofFields s e m) := by
  rw [ofFields, if_neg h]
  split
  · split <;> rfl
  · rfl

/-- Packing keeps the sign, also where it rounds to zero or overflows. -/
theorem hasSign_form_ofForm {s : Sign} {u : UnpackedFloat} (h : HasSign s u) :
    HasSign s (form (ofForm u)) := by
  cases u with
  | notANumber => exact h.elim
  | infinity t =>
    rw [form_ofForm (show Fits (.infinity t) from trivial)]
    exact h
  | zero t =>
    rw [form_ofForm (show Fits (.zero t) from trivial)]
    exact h
  | finite t m e hm =>
    obtain rfl : t = s := h
    rw [form_ofForm_finite]
    split
    · rfl
    · next hk =>
      split
      · refine hasSign_ofFields t _ ?_
        rw [ne_eq, ← BitVec.toNat_inj, BitVec.toNat_ofNat, BitVec.neg_one_eq_allOnes,
          BitVec.toNat_allOnes]
        omega
      · exact hasSign_ofFields t _ (by decide)

end MotionTemplate.Number
