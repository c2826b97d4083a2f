/-! The fewest decimal digits that identify a floating-point value. Candidates are compared with
the interval of reals that round to the value, in exact integer arithmetic. -/
namespace MotionTemplate.Number

def twoTo (n : Nat) : Nat := Nat.pow 2 n

def tenTo (n : Nat) : Nat := Nat.pow 10 n

/-- The decimal `digits * 10 ^ exponent`. -/
structure Decimal where
  digits : Nat
  exponent : Int
deriving DecidableEq

/-- Which of two equally close decimals is taken. -/
inductive Tie where
  | toEven
  | up
deriving DecidableEq

/-- The value `mantissa * 2 ^ exponent` of a positive finite `Float`. `narrow` says that the
neighbour below is half as far away as the neighbour above. -/
structure Binary where
  mantissa : Nat
  exponent : Int
  narrow : Bool

/-- Compares `a * 10 ^ i` with `n * 2 ^ j`. -/
def compareScaled (a : Nat) (i : Int) (n : Nat) (j : Int) : Ordering :=
  compare (a * tenTo i.toNat * twoTo (-j).toNat) (n * twoTo j.toNat * tenTo (-i).toNat)

/-- A decimal reads back to `x` when it lies among the reals that round to `x`; the ends belong
to the interval exactly when the mantissa is even. -/
def Binary.readsBack (x : Binary) (d : Decimal) : Bool :=
  let low := if x.narrow then 4 * x.mantissa - 1 else 4 * x.mantissa - 2
  let high := 4 * x.mantissa + 2
  let closed := x.mantissa % 2 == 0
  let below := compareScaled d.digits d.exponent low (x.exponent - 2)
  let above := compareScaled d.digits d.exponent high (x.exponent - 2)
  (below == .gt || (closed && below == .eq)) && (above == .lt || (closed && above == .eq))

/-- The least `k` with `x < 10 ^ k`, found from the binary logarithm. -/
def Binary.scale (x : Binary) : Int :=
  let guess := (x.mantissa.log2 + x.exponent) * 30103 / 100000 - 1
  (([0, 1, 2, 3] : List Int).find? fun step =>
    compareScaled 1 (guess + step) x.mantissa x.exponent == .gt).elim (guess + 4) (guess + ·)

/-- The decimal next to `x` with the given last place that reads back, if one does. -/
def Binary.onGrid? (x : Binary) (tie : Tie) (place : Int) : Option Decimal :=
  let num := x.mantissa * twoTo x.exponent.toNat * tenTo (-place).toNat
  let den := twoTo (-x.exponent).toNat * tenTo place.toNat
  let down : Decimal := ⟨num / den, place⟩
  let up : Decimal := ⟨num / den + 1, place⟩
  match x.readsBack down, x.readsBack up with
  | false, false => none
  | true, false => some down
  | false, true => some up
  | true, true =>
    match compare (2 * num) ((2 * down.digits + 1) * den), tie with
    | .lt, _ => some down
    | .gt, _ => some up
    | .eq, .up => some up
    | .eq, .toEven => some (if down.digits % 2 == 0 then down else up)

/-- Moves trailing zeros into the exponent, at most `fuel` of them. -/
def Decimal.strip : Nat → Decimal → Decimal
  | 0, d => d
  | fuel + 1, d =>
    if d.digits % 10 == 0 then strip fuel ⟨d.digits / 10, d.exponent + 1⟩ else d

/-- The fewest digits that identify `x`; of two such decimals the closer one. Seventeen digits
always suffice; the exact value stands behind them. -/
def Binary.shortest (x : Binary) (tie : Tie) : Decimal :=
  let scale := x.scale
  match (List.range 17).findSome? fun (n : Nat) => x.onGrid? tie (scale - (n + 1 : Nat)) with
  | some d => d.strip 18
  | none =>
    ⟨x.mantissa * twoTo x.exponent.toNat * Nat.pow 5 (-x.exponent).toNat, min x.exponent 0⟩

end MotionTemplate.Number
