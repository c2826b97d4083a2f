import MotionTemplate.FileTree

/-! The failures that a host of the library sees. -/
namespace MotionTemplate

inductive Failure where
  | template (message : String)
  | preview (message : String)
  | render (message : String)
  | config (message : String)
  | fileNotFound (path : String)
  | file (error : FileError)
  /-- Data that cannot be read. -/
  | data
  | other (message : String)
deriving DecidableEq

/-- The text of a failure. The reader of data gives no reason. -/
def Failure.message : Failure → String
  | template m => "Template error: " ++ m
  | preview m => "Preview error: " ++ m
  | render m => "Render error: " ++ m
  | config m => "Configuration error: " ++ m
  | fileNotFound path => "File not found: " ++ path
  | file e => e.message
  | data => ""
  | other m => m

end MotionTemplate
