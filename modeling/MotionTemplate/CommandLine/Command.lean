import MotionTemplate.CommandLine.Arguments

/-! The commands of the program and the options that each of them takes. -/
namespace MotionTemplate.CommandLine

/-- What a customization is made from: a file first, then single choices on top of it. -/
structure Choices where
  file : Option String
  theme : Option String
  duration : Option Float
  /-- Placeholders with their values, as `id=value`. -/
  pairs : List String
deriving DecidableEq

/-- Templates are named by their path or by their id in the templates directory. -/
inductive Command where
  /-- Writes a starter template into a directory. -/
  | init (id : String) (name : Option String) (output : String)
  /-- Reports what is wrong with a template and a customization of it. -/
  | validate (template : String) (choices : Choices)
  /-- Describes a template. -/
  | info (template : String) (json : Bool)
  /-- Prints the composition. -/
  | resolve (template : String) (choices : Choices)
  /-- Prints the frame at a time. -/
  | frame (template : String) (time : Float) (width : Option Float) (choices : Choices)
  /-- Plays the composition and tells which layers are visible. -/
  | preview (template : String) (fps : Option Nat) (seconds width : Option Float) (looping : Bool)
      (choices : Choices)
  /-- Prints the render plan. -/
  | plan (template : String) (time : Option Float) (choices : Choices)
  /-- Has the template rendered by the service. -/
  | render (template : String) (title : Option String) (format quality : String) (wait : Bool)
      (maxPolls : Option Nat) (choices : Choices)
deriving DecidableEq

structure Invocation where
  verbose : Bool
  command : Command
deriving DecidableEq

private def option (name : String) (kind : OptionKind) : OptionSpec := ⟨name, none, kind⟩

private def verboseOption : OptionSpec := ⟨"verbose", some 'v', .flag⟩

private def helpOption : OptionSpec := ⟨"help", some 'h', .describe⟩

private def versionOption : OptionSpec := ⟨"version", some 'V', .describe⟩

private def choiceOptions : List OptionSpec :=
  [option "customization" .path, option "theme" .text, option "duration" .number,
   option "set" .texts]

private def Choices.ofFindings (f : Findings) : Choices where
  file := f.text? "customization"
  theme := f.text? "theme"
  duration := f.number? "duration"
  pairs := f.texts "set"

/-- How a command is read: its options, and the command with its operand. -/
structure Grammar where
  options : List OptionSpec
  command : (operand : String) → Findings → Command

/-- The commands by name. -/
def grammars : List (String × Grammar) :=
  [("init",
    { options := [option "name" .text, ⟨"output", some 'o', .path⟩]
      command := fun id f => .init id (f.text? "name") ((f.text? "output").getD ".") }),
   ("validate",
    { options := choiceOptions
      command := fun template f => .validate template (.ofFindings f) }),
   ("info",
    { options := [option "json" .flag]
      command := fun template f => .info template (f.has "json") }),
   ("resolve",
    { options := choiceOptions
      command := fun template f => .resolve template (.ofFindings f) }),
   ("frame",
    { options := ⟨"time", some 't', .number⟩ :: option "width" .number :: choiceOptions
      command := fun template f =>
        .frame template ((f.number? "time").getD 0.0) (f.number? "width") (.ofFindings f) }),
   ("preview",
    { options := option "fps" .count :: option "seconds" .number :: option "width" .number
        :: option "no-loop" .flag :: choiceOptions
      command := fun template f =>
        .preview template (f.count? "fps") (f.number? "seconds") (f.number? "width")
          (!f.has "no-loop") (.ofFindings f) }),
   ("plan",
    { options := option "at" .number :: choiceOptions
      command := fun template f => .plan template (f.number? "at") (.ofFindings f) }),
   ("render",
    { options := option "title" .text :: option "format" .text :: option "quality" .text
        :: option "no-wait" .flag :: option "max-polls" .count :: choiceOptions
      command := fun template f =>
        .render template (f.text? "title") ((f.text? "format").getD "mp4")
          ((f.text? "quality").getD "high") (!f.has "no-wait") (f.count? "max-polls")
          (.ofFindings f) })]

/-- The command that describes the program or one of its commands. -/
def helpName : String := "help"

/-- Help is given on the program or on one thing that it knows. -/
private def refuseHelp : List String → Refusal
  | [] => .described
  | [name] => if name = helpName ∨ (KeyMap.lookup name grammars).isSome then .described else .malformed
  | _ => .malformed

/-- Reads a command line. Every command has exactly one operand. -/
def Invocation.ofArguments (arguments : List String) : Except Refusal Invocation := do
  let (leading, name, rest) ←
    readLeading [verboseOption, helpOption, versionOption] (.empty, none) arguments
  if name = helpName then throw (refuseHelp rest)
  match KeyMap.lookup name grammars with
  | none => throw .malformed
  | some grammar =>
    let f ← readWords (verboseOption :: helpOption :: grammar.options) 1 (.empty, none) rest
    match f.operands with
    | [] => throw .malformed
    | operand :: _ =>
      return ⟨leading.has verboseOption.name || f.has verboseOption.name,
        grammar.command operand f⟩

end MotionTemplate.CommandLine
