/-! Times, lengths and animation values. A program runs on `Float`; the operations that the
theory also reads on exact numbers ask only for `Measure`. -/
namespace MotionTemplate

/-- What a time or a length must offer besides its arithmetic and its order. -/
class Measure (α : Type) where
  /-- Neither infinite nor undefined. -/
  isFinite : α → Bool
  /-- The undefined value, which no comparison accepts. -/
  isNaN : α → Bool
  /-- The representative of the first argument in `[0, period)`. -/
  wrap : (value period : α) → α

namespace Number

open Float.Model in
/-- The exact remainder of a truncating division. It takes the dividend's sign. -/
def remainder (x y : Float) : Float :=
  match x.toModel.unpack, y.toModel.unpack with
  | .finite sign m e _, .finite _ n f _ =>
    let grid := min e f
    let rest := (m <<< (e - grid).toNat) % (n <<< (f - grid).toNat)
    Float.ofModel (.pack (UnpackedFloat.normalize .binary64 (sign.apply (rest : Int)) grid sign))
  | .finite .., .infinity _ => x
  | .zero _, .infinity _ => x
  | .zero _, .finite .. => x
  | _, _ => 0.0 / 0.0

/-- A remainder below zero is moved up by one period. -/
def wrap (x period : Float) : Float :=
  let rest := remainder x period
  if rest < 0.0 then rest + period.abs else rest

/-- The larger of a value and zero; an undefined value counts as zero. -/
def atLeastZero {α : Type} [LT α] [DecidableLT α] [OfNat α 0] (x : α) : α :=
  if 0 < x then x else 0

/-- A value held between two bounds. An undefined value stays undefined. -/
def clamp {α : Type} [LT α] [DecidableLT α] (x low high : α) : α :=
  if x < low then low else if high < x then high else x

/-- The least count that is not below `x`, limited to 64 bits. -/
def ceilCount (x : Float) : UInt64 :=
  let whole := x.toUInt64
  if whole.toFloat < x ∧ x < 9007199254740992.0 then whole + 1 else whole

end Number

instance : Measure Float where
  isFinite := Float.isFinite
  isNaN := Float.isNaN
  wrap := Number.wrap

@[simp]
theorem Measure.isFinite_float (x : Float) : Measure.isFinite x = x.isFinite := rfl

@[simp]
theorem Measure.wrap_float (x period : Float) : Measure.wrap x period = Number.wrap x period := rfl

end MotionTemplate
