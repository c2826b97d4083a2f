import MotionTemplate.KeyMap
import MotionTemplate.Number.Reading

/-! The words of a command line. Options have long names, some have letters too; their values follow
as words of their own or are attached. A word that is neither an option nor the value of one is an
operand. -/
namespace MotionTemplate.CommandLine

/-- What an option expects. -/
inductive OptionKind where
  /-- No value. -/
  | flag
  | text
  /-- A text that is not empty. -/
  | path
  | number
  /-- A natural number of 32 bits. -/
  | count
  /-- A text, and the option may be repeated. -/
  | texts
  /-- No value; the program only describes itself. -/
  | describe
deriving DecidableEq

structure OptionSpec where
  name : String
  letter : Option Char
  kind : OptionKind
deriving DecidableEq

/-- Why there is no command to carry out. -/
inductive Refusal where
  /-- The program was asked to describe itself. -/
  | described
  | malformed
deriving DecidableEq

/-- The exit code of the program. -/
def Refusal.code : Refusal → Nat
  | described => 0
  | malformed => 2

/-- What stands in the words read so far. -/
structure Findings where
  operands : List String
  /-- The options by name with their values, in the order of the words. -/
  options : List (String × String)
deriving DecidableEq

/-- A word by its looks. -/
inductive Word where
  /-- What follows is no option. -/
  | escape
  | long (name : String) (attached : Option String)
  | letters (cs : List Char)
  | plain
deriving DecidableEq

namespace Word

private def longWord (text : List Char) : Word :=
  match text.dropWhile (· ≠ '=') with
  | [] => long (String.ofList text) none
  | _ :: value => long (String.ofList (text.takeWhile (· ≠ '='))) (some (String.ofList value))

def ofText (text : String) : Word :=
  match text.toList with
  | '-' :: '-' :: [] => escape
  | '-' :: '-' :: rest => longWord rest
  | '-' :: c :: rest => letters (c :: rest)
  | _ => plain

end Word

/-- A natural number of 32 bits in plain text. The sign of zero does not matter. -/
def count? (text : String) : Option Nat :=
  let (negative, digits) := Number.signed text.toList
  match Number.digitRun 0 digits with
  | (_, 0, _) => none
  | (value, _, []) => if value < 1 <<< 32 ∧ (negative → value = 0) then some value else none
  | _ => none

namespace OptionKind

def takesValue : OptionKind → Bool
  | flag | describe => false
  | text | path | number | count | texts => true

/-- Whether a value is one of those that are expected. -/
def accepts : OptionKind → String → Bool
  | path, value => value ≠ ""
  | number, value => (Number.ofText? value).isSome
  | count, value => (count? value).isSome
  | flag, _ | describe, _ | text, _ | texts, _ => true

end OptionKind

namespace Findings

def empty : Findings := ⟨[], []⟩

/-- Adds an option with its value. Only some may be repeated. -/
def add (f : Findings) (o : OptionSpec) (value : String) : Except Refusal Findings :=
  if o.kind = .describe then .error .described
  else if !o.kind.accepts value then .error .malformed
  else if o.kind ≠ .texts ∧ f.options.any (·.1 = o.name) then .error .malformed
  else .ok { f with options := f.options ++ [(o.name, value)] }

/-- Adds an operand where there is still room for one. -/
def addOperand (f : Findings) (room : Nat) (text : String) : Except Refusal Findings :=
  if f.operands.length < room then .ok { f with operands := f.operands ++ [text] }
  else .error .malformed

def text? (f : Findings) (name : String) : Option String := KeyMap.lookup name f.options

def has (f : Findings) (name : String) : Bool := (f.text? name).isSome

def number? (f : Findings) (name : String) : Option Float := (f.text? name).bind Number.ofText?

def count? (f : Findings) (name : String) : Option Nat :=
  (f.text? name).bind CommandLine.count?

/-- All values of an option that may be repeated. -/
def texts (f : Findings) (name : String) : List String :=
  (f.options.filter (·.1 = name)).map (·.2)

end Findings

/-- Findings, and an option that still waits for its value. -/
abbrev Reading := Findings × Option OptionSpec

/-- Reads a long option. -/
def readLong (options : List OptionSpec) (f : Findings) (name : String)
    (attached : Option String) : Except Refusal Reading :=
  match options.find? (·.name = name), attached with
  | none, _ => .error .malformed
  | some o, none => if o.kind.takesValue then .ok (f, some o) else (f.add o "").map (·, none)
  | some o, some value =>
    if o.kind.takesValue then (f.add o value).map (·, none) else .error .malformed

/-- Reads letters behind a dash. The first one that expects a value takes the others as its
value. -/
def readLetters (options : List OptionSpec) (f : Findings) :
    List Char → Except Refusal Reading
  | [] => .ok (f, none)
  | c :: rest =>
    match options.find? (·.letter = some c), rest with
    | none, _ => .error .malformed
    | some o, rest =>
      if !o.kind.takesValue then (f.add o "").bind fun f => readLetters options f rest
      else match rest with
        | [] => .ok (f, some o)
        | '=' :: value | value => (f.add o (String.ofList value)).map (·, none)

/-- Reads the words of a command with room for so many operands. -/
def readWords (options : List OptionSpec) (room : Nat) :
    Reading → List String → Except Refusal Findings
  | (f, none), [] => .ok f
  | (_, some _), [] => .error .malformed
  | (f, waiting), word :: rest =>
    match Word.ofText word, waiting with
    | .plain, some o => (f.add o word).bind fun f => readWords options room (f, none) rest
    | .plain, none =>
      (f.addOperand room word).bind fun f => readWords options room (f, none) rest
    | _, some _ => .error .malformed
    | .escape, none => rest.foldlM (fun f word => f.addOperand room word) f
    | .long name attached, none =>
      (readLong options f name attached).bind fun r => readWords options room r rest
    | .letters cs, none =>
      (readLetters options f cs).bind fun r => readWords options room r rest

/-- Reads the options in front of the first plain word, and gives that word and those behind
it. -/
def readLeading (options : List OptionSpec) :
    Reading → List String → Except Refusal (Findings × String × List String)
  | _, [] => .error .malformed
  | (f, waiting), word :: rest =>
    match Word.ofText word, waiting with
    | .plain, none => .ok (f, word, rest)
    | .plain, some o => (f.add o word).bind fun f => readLeading options (f, none) rest
    | _, some _ | .escape, none => .error .malformed
    | .long name attached, none =>
      (readLong options f name attached).bind fun r => readLeading options r rest
    | .letters cs, none => (readLetters options f cs).bind fun r => readLeading options r rest

end MotionTemplate.CommandLine
