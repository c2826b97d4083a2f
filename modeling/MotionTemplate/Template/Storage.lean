import MotionTemplate.Failure
import MotionTemplate.Template.Validation

/-! Definitions read from text and kept in files. What is read has also passed validation. -/
namespace MotionTemplate

/-- Why a definition could not be read or written. -/
inductive TemplateError where
  | file (path : String) (cause : FileError)
  /-- The text from a source is no definition. -/
  | malformed (origin : String)
  | invalid (flaw : Flaw)
deriving DecidableEq

namespace TemplateError

/-- The text of an error. The reader of data gives no reason. -/
def message : TemplateError → String
  | file path cause => "I/O error at " ++ path ++ ": " ++ cause.message
  | malformed origin => "Parse error in " ++ origin ++ ": "
  | invalid flaw => "Invalid template: " ++ flaw.message

/-- A file that is not there is reported as such, everything else as a fault of the template. -/
def toFailure : TemplateError → Failure
  | file path .notFound => .fileNotFound path
  | e => .template e.message

end TemplateError

namespace Definition

def ofTextFrom (origin text : String) : Except TemplateError Definition := do
  match Json.decode? decoder text with
  | none => .error (.malformed origin)
  | some d =>
    d.validate.mapError .invalid
    return d

/-- A definition from its text. -/
def ofText (text : String) : Except TemplateError Definition := ofTextFrom "<inline>" text

/-- A definition from a file. -/
def load (files : FileTree) (path : String) : Except TemplateError Definition := do
  let text ← (files.readText path).mapError (.file path)
  ofTextFrom path text

/-- The text that a definition is kept as. -/
def text (d : Definition) : String := d.toJson.pretty

/-- Writes a definition to a file and creates the directories above it. -/
def saving (d : Definition) (path : String) : Steps TemplateError Unit :=
  EStateM.adaptExcept (fun e => .file e.1 e.2) (FileTree.saving path (.text d.text))

def save (d : Definition) (files : FileTree) (path : String) : Except TemplateError FileTree :=
  (d.saving path).outcome files

end Definition

end MotionTemplate
