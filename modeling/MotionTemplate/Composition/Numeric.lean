import MotionTemplate.Json.Value
import MotionTemplate.Number.Reading
import MotionTemplate.Text.Blank

/-! Data read as numbers. -/
namespace MotionTemplate.Json

/-- The finite number that a number or a numeric text stands for. -/
def numeric? (j : Json) : Option Float :=
  let value :=
    match j with
    | .number n => some n.toFloat
    | .string s => Number.ofText? (Text.trim s)
    | _ => none
  value.filter Float.isFinite

end MotionTemplate.Json
