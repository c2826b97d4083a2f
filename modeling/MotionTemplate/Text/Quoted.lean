import MotionTemplate.Text.Formless

/-! Texts in quotes for diagnostics: what cannot be shown is written as an escape. -/
namespace MotionTemplate.Text

private def hexText (n : Nat) : List Char := Nat.toDigits 16 n

private def shownChar (c : Char) : List Char :=
  if c = '\x00' then ['\\', '0']
  else if c = '\t' then ['\\', 't']
  else if c = '\n' then ['\\', 'n']
  else if c = '\r' then ['\\', 'r']
  else if c = '"' then ['\\', '"']
  else if c = '\\' then ['\\', '\\']
  else if isFormless c then ['\\', 'u', '\x7b'] ++ hexText c.toNat ++ ['\x7d']
  else [c]

/-- A text between quotes. -/
def quoted (s : String) : String :=
  "\"" ++ String.ofList (s.toList.flatMap shownChar) ++ "\""

/-- A path between quotes. In a path single quotes are escaped as well. -/
def quotedPath (s : String) : String :=
  let shown (c : Char) : List Char := if c = '\x27' then ['\\', c] else shownChar c
  "\"" ++ String.ofList (s.toList.flatMap shown) ++ "\""

/-- A text that may be absent. -/
def quotedOption : Option String → String
  | none => "None"
  | some s => "Some(" ++ quoted s ++ ")"

end MotionTemplate.Text
