/-! Floating-point values read from decimal text. -/
namespace MotionTemplate.Number

/-- The double nearest to `digits * 10 ^ exponent`. Exponents far outside the range of doubles
are settled without computing the power. -/
def ofDecimal (negative : Bool) (digits : Nat) (exponent : Int) : Float :=
  let size :=
    if digits = 0 ∨ exponent + digits.log2 < -400 then 0.0
    else if 400 < exponent then 1.0 / 0.0
    else Float.ofScientific digits (exponent < 0) exponent.natAbs
  if negative then -size else size

/-- The number that a run of decimal digits stands for, and their count, after `start`. -/
def digitRun (start : Nat) : List Char → Nat × Nat × List Char
  | c :: rest =>
    if c.isDigit then
      let (value, count, left) := digitRun (start * 10 + (c.toNat - '0'.toNat)) rest
      (value, count + 1, left)
    else (start, 0, c :: rest)
  | [] => (start, 0, [])

/-- A sign, if the text starts with one: whether it is a minus, and the rest. -/
def signed : List Char → Bool × List Char
  | '-' :: rest => (true, rest)
  | '+' :: rest => (false, rest)
  | text => (false, text)

/-- The exponent part of a number, which must reach the end of the text. -/
private def exponentEnd? : List Char → Option Int
  | [] => some 0
  | c :: rest =>
    if c = 'e' ∨ c = 'E' then
      let (negative, digits) := signed rest
      match digitRun 0 digits with
      | (_, 0, _) => none
      | (value, _, []) => some (if negative then -value else value)
      | _ => none
    else none

private def decimal? (negative : Bool) (text : List Char) : Option Float :=
  let (whole, wholeCount, rest) := digitRun 0 text
  let (value, count, rest) :=
    match rest with
    | '.' :: fraction => digitRun whole fraction
    | _ => (whole, 0, rest)
  if wholeCount + count = 0 then none
  else (exponentEnd? rest).map fun exponent => ofDecimal negative value (exponent - count)

/-- A number in plain text: an optional sign, then digits with an optional point and exponent, or
one of the words for infinity and for the undefined value, in any case. -/
def ofText? (text : String) : Option Float :=
  let (negative, rest) := signed text.toList
  let word := String.ofList (rest.map Char.toLower)
  if word = "inf" ∨ word = "infinity" then some (if negative then -1.0 / 0.0 else 1.0 / 0.0)
  else if word = "nan" then some (0.0 / 0.0)
  else decimal? negative rest

end MotionTemplate.Number
