import MotionTemplate.Json.Value
import MotionTemplate.Number.Reading

/-! Data read from text. The grammar admits no comments, no trailing commas and no byte order
mark; fields keep the order of the text, repeated ones included. -/
namespace MotionTemplate.Json

/-- What is left of a text, after a value read from it. -/
abbrev Rest := List Char

def skip (text : Rest) : Rest :=
  text.dropWhile fun c => c = ' ' || c = '\n' || c = '\t' || c = '\r'

def hexValue? (c : Char) : Option Nat :=
  if '0' ≤ c ∧ c ≤ '9' then some (c.toNat - '0'.toNat)
  else if 'a' ≤ c ∧ c ≤ 'f' then some (c.toNat - 'a'.toNat + 10)
  else if 'A' ≤ c ∧ c ≤ 'F' then some (c.toNat - 'A'.toNat + 10)
  else none

def hex4? : Rest → Option (Nat × Rest)
  | a :: b :: c :: d :: rest => do
    let a ← hexValue? a
    let b ← hexValue? b
    let c ← hexValue? c
    let d ← hexValue? d
    some (((a * 16 + b) * 16 + c) * 16 + d, rest)
  | _ => none

def isHigh (unit : Nat) : Bool := 0xD800 ≤ unit && unit < 0xDC00

def isLow (unit : Nat) : Bool := 0xDC00 ≤ unit && unit < 0xE000

/-- One escape after its backslash. Half a surrogate pair is no character. -/
def escape? : Rest → Option (Option Char × Rest)
  | '"' :: rest => some (some '"', rest)
  | '\\' :: rest => some (some '\\', rest)
  | '/' :: rest => some (some '/', rest)
  | 'b' :: rest => some (some '\x08', rest)
  | 'f' :: rest => some (some '\x0c', rest)
  | 'n' :: rest => some (some '\n', rest)
  | 'r' :: rest => some (some '\r', rest)
  | 't' :: rest => some (some '\t', rest)
  | 'u' :: rest =>
    match hex4? rest with
    | none => none
    | some (unit, rest) =>
      if isLow unit then some (none, rest)
      else if isHigh unit then
        match rest with
        | '\\' :: 'u' :: more =>
          match hex4? more with
          | none => none
          | some (second, after) =>
            if isLow second then
              some (some (Char.ofNat (0x10000 + (unit - 0xD800) * 0x400 + (second - 0xDC00))), after)
            else some (none, rest)
        | _ => some (none, rest)
      else some (some (Char.ofNat unit), rest)
  | _ => none

/-- The characters of a string up to its closing quote: what was read before, in reverse, and
whether all of it stands for characters. -/
def characters? (fuel : Nat) (done : List Char) (sound : Bool) (text : Rest) :
    Option (Option String × Rest) :=
  match fuel, text with
  | 0, _ | _, [] => none
  | _ + 1, '"' :: rest =>
    some (if sound then some (String.ofList done.reverse) else none, rest)
  | fuel + 1, '\\' :: rest =>
    match escape? rest with
    | none => none
    | some (some c, rest) => characters? fuel (c :: done) sound rest
    | some (none, rest) => characters? fuel done false rest
  | fuel + 1, c :: rest =>
    if c.toNat < 32 then none else characters? fuel (c :: done) sound rest

def wholePart? : Rest → Option (Nat × Rest)
  | '0' :: c :: rest => if c.isDigit then none else some (0, c :: rest)
  | text =>
    match Number.digitRun 0 text with
    | (_, 0, _) => none
    | (value, _, rest) => some (value, rest)

def fractionPart? (whole : Nat) : Rest → Option (Nat × Nat × Rest)
  | '.' :: rest =>
    match Number.digitRun whole rest with
    | (_, 0, _) => none
    | (value, count, rest) => some (value, count, rest)
  | rest => some (whole, 0, rest)

def exponentPart? : Rest → Option (Option Int × Rest)
  | c :: rest =>
    if c = 'e' ∨ c = 'E' then
      let (negative, rest) := Number.signed rest
      match Number.digitRun 0 rest with
      | (_, 0, _) => none
      | (value, _, rest) => some (some (if negative then -(value : Int) else value), rest)
    else some (none, c :: rest)
  | [] => some (none, [])

def real (x : Float) : Json := if x.isFinite then .number (.real x) else .unreadable

/-- Integers that fit 64 bits stay integers. A negative zero is floating point. -/
def integer (negative : Bool) (n : Nat) : Json :=
  if negative then
    if 0 < n ∧ n ≤ 1 <<< 63 then .number (.whole (-n)) else real (Number.ofDecimal true n 0)
  else if n < 1 <<< 64 then .number (.whole n)
  else real (Number.ofDecimal false n 0)

def unsigned? (negative : Bool) (text : Rest) : Option (Json × Rest) := do
  let (whole, rest) ← wholePart? text
  let (digits, places, rest) ← fractionPart? whole rest
  let (exponent, rest) ← exponentPart? rest
  if places = 0 ∧ exponent.isNone then some (integer negative whole, rest)
  else some (real (Number.ofDecimal negative digits (exponent.getD 0 - places)), rest)

def word? (word : String) (value : Json) (text : Rest) : Option (Json × Rest) :=
  if word.toList.isPrefixOf text then some (value, text.drop word.length) else none

mutual

def readValue? (fuel : Nat) (text : Rest) : Option (Json × Rest) :=
  match fuel with
  | 0 => none
  | fuel + 1 =>
    match skip text with
    | 'n' :: rest => word? "ull" .null rest
    | 't' :: rest => word? "rue" (.bool true) rest
    | 'f' :: rest => word? "alse" (.bool false) rest
    | '"' :: rest =>
      (characters? (rest.length + 1) [] true rest).map fun (s, rest) =>
        (s.elim .unreadable .string, rest)
    | '[' :: rest =>
      match skip rest with
      | ']' :: rest => some (.array [], rest)
      | rest => (readItems? fuel rest).map fun (items, rest) => (.array items, rest)
    | '\x7b' :: rest =>
      match skip rest with
      | '\x7d' :: rest => some (.object [], rest)
      | rest =>
        (readFields? fuel rest).map fun (fields, rest) => (fields.elim .unreadable .object, rest)
    | '-' :: rest => unsigned? true rest
    | text => unsigned? false text

def readItems? (fuel : Nat) (text : Rest) : Option (List Json × Rest) :=
  match fuel with
  | 0 => none
  | fuel + 1 =>
    match readValue? fuel text with
    | none => none
    | some (item, rest) =>
      match skip rest with
      | ',' :: rest => (readItems? fuel rest).map fun (items, rest) => (item :: items, rest)
      | ']' :: rest => some ([item], rest)
      | _ => none

/-- The fields up to the closing brace; none at all when a name has no characters of its own. -/
def readFields? (fuel : Nat) (text : Rest) : Option (Option (List (String × Json)) × Rest) :=
  match fuel with
  | 0 => none
  | fuel + 1 =>
    match skip text with
    | '"' :: rest =>
      match characters? (rest.length + 1) [] true rest with
      | none => none
      | some (name, rest) =>
        match skip rest with
        | ':' :: rest =>
          match readValue? fuel rest with
          | none => none
          | some (value, rest) =>
            let entry := name.map fun name => (name, value)
            match skip rest with
            | ',' :: rest =>
              (readFields? fuel rest).map fun (fields, rest) =>
                ((do some ((← entry) :: (← fields))), rest)
            | '\x7d' :: rest => some (entry.map ([·]), rest)
            | _ => none
        | _ => none
    | _ => none

end

/-- Reads a text that holds one value and nothing else but white space. -/
def parse? (text : String) : Option Json :=
  match readValue? (2 * text.length + 2) text.toList with
  | some (value, rest) => if (skip rest).isEmpty then some value else none
  | none => none

private def leadingItems (fuel : Nat) (text : Rest) : List Json :=
  match fuel with
  | 0 => []
  | fuel + 1 =>
    match readValue? (2 * text.length + 2) text with
    | none => []
    | some (item, rest) =>
      match skip rest with
      | ',' :: rest => item :: leadingItems fuel rest
      | _ => [item]

private def leadingFields (fuel : Nat) (text : Rest) : List (String × Json) :=
  match fuel, skip text with
  | fuel + 1, '"' :: rest =>
    match characters? (rest.length + 1) [] true rest with
    | some (some name, rest) =>
      match skip rest with
      | ':' :: rest =>
        match readValue? (2 * rest.length + 2) rest with
        | none => []
        | some (value, rest) =>
          match skip rest with
          | ',' :: rest => (name, value) :: leadingFields fuel rest
          | _ => [(name, value)]
      | _ => []
    | _ => []
  | _, _ => []

/-- The fields of a record, by the names given, as far as a text can be read: those in front of
the first fault. A list gives the fields in the order of their names. -/
def leadingRecord (names : List String) (text : String) : List (String × Json) :=
  match skip text.toList with
  | '[' :: rest => names.zip (leadingItems (rest.length + 1) rest)
  | '\x7b' :: rest => leadingFields (rest.length + 1) rest
  | _ => []

end MotionTemplate.Json
