/-! What the program reports about its work, beside its results. -/
namespace MotionTemplate

/-- How much an event matters, from the most to the least. -/
inductive Severity where
  | warning
  | info
  | debug
  | trace
deriving DecidableEq

/-- The place of a severity, the most important first. -/
def Severity.rank : Severity → Nat
  | warning => 0
  | info => 1
  | debug => 2
  | trace => 3

/-- A particular of an event. -/
inductive Detail where
  | number (x : Float)
  | count (n : Nat)
  | text (s : String)
deriving DecidableEq

structure Event where
  severity : Severity
  message : String
  details : List (String × Detail)
deriving DecidableEq

end MotionTemplate
