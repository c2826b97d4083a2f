import MotionTemplate.Json.Decoder
import MotionTemplate.Template.Token

/-! Field values of a layer: data in which markers may stand at any depth. -/
namespace MotionTemplate

inductive Value where
  | token (t : Token)
  /-- A scalar: null, a truth value, a number or plain text. -/
  | literal (j : Json)
  | array (items : List Value)
  | object (fields : List (String × Value))

namespace Value

mutual

def decEq : (a b : Value) → Decidable (a = b)
  | .token a, .token b => decidable_of_iff (a = b) (by simp)
  | .literal a, .literal b => decidable_of_iff (a = b) (by simp)
  | .array a, .array b =>
    match decEqItems a b with
    | isTrue h => isTrue (congrArg _ h)
    | isFalse h => isFalse fun e => h (Value.array.inj e)
  | .object a, .object b =>
    match decEqFields a b with
    | isTrue h => isTrue (congrArg _ h)
    | isFalse h => isFalse fun e => h (Value.object.inj e)
  | .token _, .literal _ | .token _, .array _ | .token _, .object _ | .literal _, .token _
  | .literal _, .array _ | .literal _, .object _ | .array _, .token _ | .array _, .literal _
  | .array _, .object _ | .object _, .token _ | .object _, .literal _
  | .object _, .array _ => isFalse nofun

def decEqItems : (a b : List Value) → Decidable (a = b)
  | [], [] => isTrue rfl
  | [], _ :: _ | _ :: _, [] => isFalse nofun
  | a :: as, b :: bs =>
    match decEq a b, decEqItems as bs with
    | isTrue h, isTrue hs => isTrue (h ▸ hs ▸ rfl)
    | isFalse h, _ => isFalse fun e => h (List.cons.inj e).1
    | _, isFalse h => isFalse fun e => h (List.cons.inj e).2

def decEqFields : (a b : List (String × Value)) → Decidable (a = b)
  | [], [] => isTrue rfl
  | [], _ :: _ | _ :: _, [] => isFalse nofun
  | (k, a) :: as, (l, b) :: bs =>
    match decEq a b, decEqFields as bs with
    | isTrue h, isTrue hs => decidable_of_iff (k = l) (by simp [h, hs])
    | isFalse h, _ => isFalse fun e => h (by simp_all)
    | _, isFalse h => isFalse fun e => h (List.cons.inj e).2

end

instance : DecidableEq Value := decEq

mutual

/-- Parses the markers in free-form data. -/
def ofJson : Json → Value
  | .string s => (Token.parse s).elim (.literal (.string s)) .token
  | .array items => .array (ofItems items)
  | .object fields => .object (ofFields fields)
  | scalar => .literal scalar

def ofItems : List Json → List Value
  | [] => []
  | j :: rest => ofJson j :: ofItems rest

def ofFields : List (String × Json) → List (String × Value)
  | [] => []
  | (name, j) :: rest => (name, ofJson j) :: ofFields rest

end

mutual

/-- Writes the markers back. -/
def toJson : Value → Json
  | .token t => .string t.marker
  | .literal j => j
  | .array items => .array (toItems items)
  | .object fields => .object (toFields fields)

def toItems : List Value → List Json
  | [] => []
  | v :: rest => toJson v :: toItems rest

def toFields : List (String × Value) → List (String × Json)
  | [] => []
  | (name, v) :: rest => (name, toJson v) :: toFields rest

end

mutual

/-- The tokens of a value from left to right. -/
def tokens : Value → List Token
  | .token t => [t]
  | .literal _ => []
  | .array items => itemTokens items
  | .object fields => fieldTokens fields

def itemTokens : List Value → List Token
  | [] => []
  | v :: rest => tokens v ++ itemTokens rest

def fieldTokens : List (String × Value) → List Token
  | [] => []
  | (_, v) :: rest => tokens v ++ fieldTokens rest

end

/-- A numeric literal. -/
def number (x : Float) : Value := .literal (.ofFloat x)

/-- Plain text, never a marker. -/
def text (s : String) : Value := .literal (.string s)

/-- Text in which a marker is recognised. -/
def ofText (s : String) : Value := ofJson (.string s)

/-- The token, if the value is exactly one. -/
def token? : Value → Option Token
  | .token t => some t
  | _ => none

/-- The number, if the value is a numeric literal. -/
def float? : Value → Option Float
  | .literal j => j.float?
  | _ => none

def decoder : Decoder Value := Decoder.map ofJson Decoder.json

end Value

end MotionTemplate
