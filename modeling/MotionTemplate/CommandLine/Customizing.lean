import MotionTemplate.CommandLine.Command
import MotionTemplate.Customization
import MotionTemplate.FileTree

/-! The customization that a command line asks for. -/
namespace MotionTemplate.CommandLine

/-- Why there is no customization. -/
inductive ChoiceError where
  | unreadable (path : String) (cause : FileError)
  /-- The file is no customization. -/
  | malformed (path : String)
  /-- A choice without an id or without a value. -/
  | noPair (text : String)
deriving DecidableEq

/-- The text of an error. The reader of data gives no reason. -/
def ChoiceError.message : ChoiceError → String
  | unreadable path cause => "Failed to read customization " ++ path ++ ": " ++ cause.message
  | malformed path => "Invalid customization " ++ path ++ ": "
  | noPair text => "Expected ID=VALUE, got '" ++ text ++ "'"

/-- The id of a placeholder and its value, split at the first `=`. The id is trimmed and must not
be blank; the value is taken as it is. -/
def pair? (text : String) : Option (String × String) :=
  match text.toList.dropWhile (· ≠ '=') with
  | [] => none
  | _ :: value =>
    let id := Text.trim (String.ofList (text.toList.takeWhile (· ≠ '=')))
    if id = "" then none else some (id, String.ofList value)

namespace Choices

/-- Sets placeholders one after the other. -/
def setPairs (c : Customization) : List String → Except ChoiceError Customization
  | [] => .ok c
  | text :: rest =>
    match pair? text with
    | none => .error (.noPair text)
    | some (id, value) => setPairs (c.set id value) rest

/-- Puts the single choices on top of a customization. -/
def apply (choices : Choices) (c : Customization) : Except ChoiceError Customization :=
  setPairs
    { c with
      theme := choices.theme.or c.theme
      duration := choices.duration.or c.duration }
    choices.pairs

/-- Reads a customization from its file. -/
def readFile (files : FileTree) (path : String) : Except ChoiceError Customization := do
  let text ← (files.readText path).mapError (.unreadable path)
  match Json.decode? Customization.decoder text with
  | some c => return c
  | none => .error (.malformed path)

/-- The file where one is given, and the single choices on top. -/
def build (choices : Choices) (files : FileTree) : Except ChoiceError Customization := do
  choices.apply (← choices.file.elim (.ok .empty) (readFile files))

end Choices

end MotionTemplate.CommandLine
