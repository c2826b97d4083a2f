import MotionTemplate.Number.Shortest

/-! How floating-point values are written: shortest digits laid out by a record of decisions,
or a fixed number of places. -/
namespace MotionTemplate.Number

/-- The decisions of one way to write a value. -/
structure Layout where
  /-- Values whose leading digit stands at `10 ^ e` with `plainFrom ≤ e < plainBelow` are written
  positionally, all others with an exponent. -/
  plainFrom : Int
  plainBelow : Int
  /-- What follows a positional value without a fraction. -/
  wholeEnd : String
  /-- What stands before an exponent that is not negative. -/
  exponentPlus : String
  tie : Tie

/-- Data files: positional from `1e-5` below `1e16`, with a fraction or an exponent always. -/
def Layout.data : Layout where
  plainFrom := -5
  plainBelow := 16
  wholeEnd := ".0"
  exponentPlus := "+"
  tie := .toEven

/-- Messages: positional throughout, and whole values without a fraction. -/
def Layout.message : Layout where
  plainFrom := -400
  plainBelow := 400
  wholeEnd := ""
  exponentPlus := ""
  tie := .up

/-- Diagnostics: positional from `1e-4` below `1e16`. -/
def Layout.diagnostic : Layout where
  plainFrom := -4
  plainBelow := 16
  wholeEnd := ".0"
  exponentPlus := ""
  tie := .up

def zeros (n : Nat) : String := String.ofList (List.replicate n '0')

/-- The digits of a decimal with its point or its exponent. -/
def Layout.place (layout : Layout) (d : Decimal) : String :=
  let digits := (toString d.digits).toList
  let lead := d.exponent + digits.length - 1
  if layout.plainFrom ≤ lead ∧ lead < layout.plainBelow then
    if 0 ≤ d.exponent then
      String.ofList digits ++ zeros d.exponent.toNat ++ layout.wholeEnd
    else if 0 ≤ lead then
      let whole := (lead + 1).toNat
      String.ofList (digits.take whole) ++ "." ++ String.ofList (digits.drop whole)
    else
      "0." ++ zeros (-lead - 1).toNat ++ String.ofList digits
  else
    let fraction := digits.drop 1
    String.ofList (digits.take 1)
      ++ (if fraction.isEmpty then "" else "." ++ String.ofList fraction)
      ++ "e" ++ (if 0 ≤ lead then layout.exponentPlus else "") ++ toString lead

def signText : Float.Model.UnpackedFloat.Sign → String
  | .positive => ""
  | .negative => "-"

def binaryOf (mantissa : Nat) (exponent : Int) : Binary :=
  ⟨mantissa, exponent, mantissa == twoTo 52 && exponent > -1074⟩

/-- A value as text. -/
def Layout.render (layout : Layout) (x : Float) : String :=
  match x.toModel.unpack with
  | .notANumber => "NaN"
  | .infinity sign => signText sign ++ "inf"
  | .zero sign => signText sign ++ "0" ++ layout.wholeEnd
  | .finite sign m e _ => signText sign ++ layout.place ((binaryOf m e).shortest layout.tie)

/-- `num / den` rounded to an integer, halves to the even neighbour. -/
def roundDiv (num den : Nat) : Nat :=
  let whole := num / den
  match compare (2 * (num % den)) den with
  | .lt => whole
  | .gt => whole + 1
  | .eq => if whole % 2 == 0 then whole else whole + 1

private def fixedDigits (places count : Nat) : String :=
  let digits := (toString count).toList
  let padded := List.replicate (places + 1 - digits.length) '0' ++ digits
  let whole := padded.length - places
  String.ofList (padded.take whole) ++ "." ++ String.ofList (padded.drop whole)

/-- A value with a fixed, positive number of places, rounded from its exact value. -/
def fixed (places : Nat) (x : Float) : String :=
  match x.toModel.unpack with
  | .notANumber => "NaN"
  | .infinity sign => signText sign ++ "inf"
  | .zero sign => signText sign ++ fixedDigits places 0
  | .finite sign m e _ =>
    signText sign ++
      fixedDigits places (roundDiv (m * twoTo e.toNat * tenTo places) (twoTo (-e).toNat))

/-- Text filled with blanks on the left up to a width. -/
def padLeft (width : Nat) (text : String) : String :=
  String.ofList (List.replicate (width - text.length) ' ') ++ text

end MotionTemplate.Number
