import MotionTemplate.Json.Parser

/-! Typed values decoded from data. A decoder knows how many levels of nesting are still allowed;
it refuses what is malformed without saying why. -/
namespace MotionTemplate

/-- Reads an `α` with room for so many more levels of nesting. -/
abbrev Decoder (α : Type) := (room : Nat) → Json → Option α

namespace Decoder

variable {α β : Type}

/-- Data may be nested 127 levels deep. -/
def fullRoom : Nat := 128

/-- One level deeper. -/
def enter? (room : Nat) : Option Nat := if room ≤ 1 then none else some (room - 1)

def run (d : Decoder α) (j : Json) : Option α := d fullRoom j

def map (f : α → β) (d : Decoder α) : Decoder β := fun room j => (d room j).map f

def string : Decoder String
  | _, .string s => some s
  | _, _ => none

def bool : Decoder Bool
  | _, .bool b => some b
  | _, _ => none

/-- Any number, integers included. -/
def float : Decoder Float
  | _, .number n => some n.toFloat
  | _, _ => none

/-- Integers in a closed range. Numbers written with a point or an exponent are refused. -/
def intIn (low high : Int) : Decoder Int
  | _, .number (.whole n) => if low ≤ n ∧ n ≤ high then some n else none
  | _, _ => none

/-- Natural numbers of so many bits. -/
def natBits (bits : Nat) : Decoder Nat := (intIn 0 ((1 <<< bits : Nat) - 1)).map Int.toNat

/-- Integers of so many bits, one of them for the sign. -/
def intBits (bits : Nat) : Decoder Int :=
  intIn (-(1 <<< (bits - 1) : Nat)) ((1 <<< (bits - 1) : Nat) - 1)

/-- Null stands for no value. -/
def option (d : Decoder α) : Decoder (Option α)
  | _, .null => some none
  | room, j => (d room j).map some

def list (d : Decoder α) : Decoder (List α)
  | room, .array items => (enter? room).bind fun room => items.mapM (d room)
  | _, _ => none

/-- An object as a map; of a repeated name the last value stays. -/
def keyMap (d : Decoder α) : Decoder (KeyMap α)
  | room, .object fields => (enter? room).bind fun room =>
    let entry (f : String × Json) : Option (String × α) := (d room f.2).map fun v => (f.1, v)
    (fields.mapM entry).map KeyMap.ofList
  | _, _ => none

/-- One of several names, written as a string or as an object with the name and null. -/
def oneOf (names : List (String × α)) : Decoder α
  | _, .string s => KeyMap.lookup s names
  | room, .object [(name, .null)] => (enter? room).bind fun _ => KeyMap.lookup name names
  | _, _ => none

mutual

/-- Free-form data: objects are put in the order of their names, and of a repeated name the last
value stays. -/
def json (room : Nat) : Json → Option Json
  | .array items =>
    (enter? room).bind fun room => (jsonItems room items).map .array
  | .object fields =>
    (enter? room).bind fun room => (jsonFields room fields).map fun fields =>
      .object (KeyMap.ofList fields).entries
  | .unreadable => none
  | scalar => some scalar

def jsonItems (room : Nat) : List Json → Option (List Json)
  | [] => some []
  | j :: rest => do return (← json room j) :: (← jsonItems room rest)

def jsonFields (room : Nat) : List (String × Json) → Option (List (String × Json))
  | [] => some []
  | (name, j) :: rest => do return (name, ← json room j) :: (← jsonFields room rest)

end

/-- The fields of a structured value. -/
structure Record where
  fields : List (String × Json)
  /-- The value was an array of its fields. -/
  positional : Bool
  /-- The room inside the value. -/
  room : Nat

/-- A structured value is an object, in which no declared field is repeated and others are
ignored, or an array of its fields in the order of declaration, the last of which may be missing. -/
def record (names : List String) : Decoder Record
  | room, .object fields => (enter? room).bind fun room =>
    let known := fields.filter fun f => names.contains f.1
    if (known.map (·.1)).Nodup then some ⟨known, false, room⟩ else none
  | room, .array items => (enter? room).bind fun room =>
    if items.length ≤ names.length then some ⟨names.zip items, true, room⟩ else none
  | _, _ => none

namespace Record

/-- A field that must be there. -/
def required (r : Record) (name : String) (d : Decoder α) : Option α :=
  (KeyMap.lookup name r.fields).bind (d r.room)

/-- A field with a value to take when it is missing. -/
def withDefault (r : Record) (name : String) (d : Decoder α) (default : α) : Option α :=
  match KeyMap.lookup name r.fields with
  | none => some default
  | some j => d r.room j

/-- A field that may be missing or null. -/
def optional (r : Record) (name : String) (d : Decoder α) : Option (Option α) :=
  r.withDefault name (option d) none

/-- A field that may be null, and missing only where fields have names. -/
def nullable (r : Record) (name : String) (d : Decoder α) : Option (Option α) :=
  if r.positional then r.required name (option d) else r.optional name d

end Record

/-- An enumeration's name written through a table. -/
def nameOf [DecidableEq α] (names : List (String × α)) (a : α) : String :=
  ((names.find? fun e => e.2 = a).map (·.1)).getD ""

end Decoder

/-- Reads a text and decodes the value in it. -/
def Json.decode? {α : Type} (d : Decoder α) (text : String) : Option α :=
  (Json.parse? text).bind d.run

end MotionTemplate
