/-! A tree of files as a value, with the failures that a file system reports and with steps that
change it. -/
namespace MotionTemplate

/-- Why a file operation failed. -/
inductive FileError where
  | notFound
  | alreadyExists
  | notADirectory
  | isADirectory
  | nameTooLong
  /-- A name with a zero character. -/
  | badName
  /-- The content is no text. -/
  | notText
deriving DecidableEq

def FileError.message : FileError → String
  | notFound => "No such file or directory (os error 2)"
  | alreadyExists => "File exists (os error 17)"
  | notADirectory => "Not a directory (os error 20)"
  | isADirectory => "Is a directory (os error 21)"
  | nameTooLong => "File name too long (os error 36)"
  | badName => "file name contained an unexpected NUL byte"
  | notText => "stream did not contain valid UTF-8"

namespace Path

/-- Names between slashes; empty ones and single dots stand for nothing. -/
def parts (path : String) : List String :=
  ((path.toList.splitOn '/').map String.ofList).filter fun name => name ≠ "" ∧ name ≠ "."

def isAbsolute (path : String) : Bool := path.toList.head? == some '/'

/-- A path that ends in a slash or a dot can only name a directory. -/
def namesDirectory (path : String) : Bool :=
  match (path.toList.splitOn '/').getLast? with
  | some [] | some ['.'] => true
  | _ => false

/-- A path whose last name is a dot, with or without slashes behind it. Such a name is never new. -/
def endsInDot (path : String) : Bool :=
  match ((path.toList.splitOn '/').filter (· ≠ [])).getLast? with
  | some ['.'] => true
  | _ => false

/-- A path below another one, unless it is absolute. -/
def join (base path : String) : String :=
  if isAbsolute path ∨ base = "" then path
  else if base.toList.getLast? = some '/' then base ++ path
  else base ++ "/" ++ path

/-- Drops slashes and single dots behind a path, but neither a leading slash nor a leading dot. -/
private def trimEnd : Nat → List Char → List Char
  | 0, path => path
  | fuel + 1, path =>
    match path.reverse with
    | '/' :: front => if front = [] then path else trimEnd fuel front.reverse
    | '.' :: '/' :: front =>
      if front = [] then ['/'] else trimEnd fuel front.reverse
    | _ => path

/-- The path without its last name; none for the root and for the empty path. -/
def parent? (path : String) : Option String :=
  let trimmed := trimEnd path.length path.toList
  if trimmed = [] ∨ trimmed = ['/'] then none
  else
    let front := (trimmed.reverse.dropWhile (· ≠ '/')).reverse
    some (String.ofList (trimEnd path.length front))

end Path

/-- What a file holds. -/
inductive FileContent where
  | text (s : String)
  /-- Bytes that are no text. -/
  | binary (bytes : List UInt8)
deriving DecidableEq

inductive FileNode where
  | directory
  | file (content : FileContent)
deriving DecidableEq

/-- Nodes by their absolute place. The root is always there. -/
structure FileTree where
  /-- Where relative paths start. -/
  working : List String
  nodes : List (List String × FileNode)

namespace FileTree

/-- A place inside a tree, as the names from the root. -/
abbrev Place := List String

def node? (t : FileTree) (place : Place) : Option FileNode :=
  if place = [] then some .directory else (t.nodes.find? (·.1 = place)).map (·.2)

/-- A tree that holds an empty working directory and the directories above it. -/
def startingIn (working : List String) : FileTree where
  working
  nodes := (List.range working.length).map fun k => (working.take (k + 1), .directory)

def empty : FileTree := startingIn ["tmp", "work"]

/-- Puts a node at a place, replacing what was there. -/
def put (t : FileTree) (place : Place) (node : FileNode) : FileTree :=
  { t with nodes := (place, node) :: t.nodes.filter (·.1 ≠ place) }

/-- Follows names downwards. All but the last must be directories; the last need not exist. -/
def walk (t : FileTree) (place : Place) : List String → Except FileError Place
  | [] => .ok place
  | name :: rest =>
    if name = ".." then walk t place.dropLast rest
    else if 255 < name.utf8ByteSize then .error .nameTooLong
    else if rest = [] then .ok (place ++ [name])
    else match t.node? (place ++ [name]) with
      | none => .error .notFound
      | some (.file _) => .error .notADirectory
      | some .directory => walk t (place ++ [name]) rest

/-- How many bytes a path may have. -/
def maxPathBytes : Nat := 4095

/-- The place that a path names. -/
def locate (t : FileTree) (path : String) : Except FileError Place :=
  if path = "" then .error .notFound
  else if path.toList.contains '\x00' then .error .badName
  else if maxPathBytes < path.utf8ByteSize then .error .nameTooLong
  else t.walk (if Path.isAbsolute path then [] else t.working) (Path.parts path)

/-- The node that a path names, if it is there. -/
def lookup (t : FileTree) (path : String) : Except FileError FileNode := do
  let place ← t.locate path
  match t.node? place with
  | none => .error .notFound
  | some .directory => .ok .directory
  | some (.file content) =>
    if Path.namesDirectory path then .error .notADirectory else .ok (.file content)

def pathExists (t : FileTree) (path : String) : Bool :=
  match t.lookup path with
  | .ok _ => true
  | .error _ => false

def isDirectory (t : FileTree) (path : String) : Bool :=
  match t.lookup path with
  | .ok .directory => true
  | _ => false

/-- The text of a file. -/
def readText (t : FileTree) (path : String) : Except FileError String := do
  match ← t.lookup path with
  | .directory => .error .isADirectory
  | .file (.text s) => .ok s
  | .file (.binary _) => .error .notText

/-- Replaces or creates a file in a directory that is there. -/
def write (t : FileTree) (path : String) (content : FileContent) : Except FileError FileTree := do
  let place ← t.locate path
  match t.node? place with
  | some .directory => .error .isADirectory
  | some (.file _) =>
    if Path.endsInDot path then .error .notADirectory
    else if Path.namesDirectory path then .error .isADirectory
    else .ok (t.put place (.file content))
  | none =>
    if Path.endsInDot path then .error .notFound
    else if Path.namesDirectory path then .error .isADirectory
    else .ok (t.put place (.file content))

/-- Creates a file that is not there yet and leaves any other as it is. -/
def touch (t : FileTree) (path : String) : Except FileError FileTree :=
  match t.lookup path with
  | .ok (.file _) => .ok t
  | _ => t.write path (.text "")

def makeDirectory (t : FileTree) (path : String) : Except FileError FileTree := do
  let place ← t.locate path
  match t.node? place with
  | some .directory => .error .alreadyExists
  | some (.file _) =>
    if Path.endsInDot path then .error .notADirectory else .error .alreadyExists
  | none => if Path.endsInDot path then .error .notFound else .ok (t.put place .directory)

end FileTree

/-- Steps on the files. When one fails, what was done before it stays. -/
abbrev Steps (ε : Type) : Type → Type := EStateM ε FileTree

namespace Steps

variable {ε ε' : Type}

/-- A single step, which does nothing when it fails. -/
def once (step : FileTree → Except ε FileTree) : Steps ε Unit := fun t =>
  match step t with
  | .ok t' => .ok () t'
  | .error e => .error e t

/-- How steps end: with the files, or with an error. -/
def outcome (steps : Steps ε Unit) (t : FileTree) : Except ε FileTree :=
  match steps t with
  | .ok _ t' => .ok t'
  | .error e _ => .error e

variable (steps rest : Steps ε Unit) (t : FileTree)

@[simp] theorem outcome_once (step : FileTree → Except ε FileTree) :
    (once step).outcome = step := by
  funext t
  rw [outcome, once]
  cases step t <;> rfl

@[simp] theorem outcome_bind :
    (steps >>= fun _ => rest).outcome t = (steps.outcome t).bind rest.outcome := by
  simp only [outcome, bind, EStateM.bind]
  cases steps t <;> rfl

@[simp] theorem outcome_adaptExcept (f : ε → ε') :
    Steps.outcome (EStateM.adaptExcept f steps) = fun t => (steps.outcome t).mapError f := by
  funext t
  simp only [outcome, EStateM.adaptExcept]
  cases steps t <;> rfl

end Steps

namespace FileTree

/-- A directory that is created unless it is there. -/
private def ensureDirectory (path : String) (t : FileTree) : Except FileError FileTree :=
  match t.makeDirectory path with
  | .ok t' => .ok t'
  | .error e => if t.isDirectory path then .ok t else .error e

/-- Creates a directory after those above it that are missing. The steps go up at most once for
every character. -/
def creatingDirectories (path : String) : Steps FileError Unit :=
  go (path.length + 1) path
where
  go : Nat → String → Steps FileError Unit
    | 0, _ => pure ()
    | fuel + 1, path =>
      if path = "" then pure ()
      else do
        match (← get).makeDirectory path, Path.parent? path with
        | .error .notFound, some above =>
          go fuel above
          Steps.once (ensureDirectory path)
        | .error .notFound, none => throw .notFound
        | _, _ => Steps.once (ensureDirectory path)

/-- Writes a file after creating the directories above it; a failure names the path that failed. -/
def saving (path : String) (content : FileContent) : Steps (String × FileError) Unit := do
  if let some above := Path.parent? path then
    EStateM.adaptExcept (above, ·) (creatingDirectories above)
  EStateM.adaptExcept (path, ·) (Steps.once (·.write path content))

def save (t : FileTree) (path text : String) : Except (String × FileError) FileTree :=
  (saving path (.text text)).outcome t

/-- Puts a node at a path, in directories that are created where they are missing. A node that
cannot be put is left out. -/
def add (t : FileTree) (path : String) : FileNode → FileTree
  | .directory => ((creatingDirectories path).outcome t).toOption.getD t
  | .file content => ((saving path content).outcome t).toOption.getD t

/-- The text of a file, or its bytes if they are none. -/
def contentOf (bytes : ByteArray) : FileContent :=
  match String.fromUTF8? bytes with
  | some s => .text s
  | none => .binary bytes.toList

end FileTree

end MotionTemplate
