import MotionTemplate.CommandLine.Log
import MotionTemplate.CommandLine.Program

/-! The program on the command line. It takes a picture of the files that a run may look at, lets
the run come to its outcome, and then prints and writes what the outcome says. -/
namespace MotionTemplate.CommandLine

private def usage : String :=
  "Usage: karo [-v] init|validate|info|resolve|frame|preview|plan|render <ID or TEMPLATE> [OPTIONS]"

/-- Adds what stands at a path, and at those above it, to a picture of the file system. -/
private def photograph : Nat → FileTree → String → IO FileTree
  | 0, t, _ => return t
  | fuel + 1, t, path => do
    let t ← match Path.parent? path with
      | some above => if above = "" then pure t else photograph fuel t above
      | none => pure t
    let place := (← IO.currentDir) / path
    if ← place.isDir then return t.add path .directory
    try return t.add path (.file (FileTree.contentOf (← IO.FS.readBinFile place)))
    catch _ => return t

private def photographAll (t : FileTree) (paths : List String) : IO FileTree :=
  paths.foldlM (fun t path => photograph (path.length + 1) t path) t

/-- The files that a command may look at. -/
private def pathsOf (c : Config) : Command → List String
  | .init id _ output => [output, Path.join output (id ++ ".json")]
  | .info template _ => templatePaths template
  | .validate template choices | .resolve template choices | .frame template _ _ choices
  | .preview template _ _ _ _ choices | .plan template _ choices
  | .render template _ _ _ _ _ choices => templatePaths template ++ choices.file.toList
where
  templatePaths (template : String) : List String :=
    [template, Path.join c.templatesDir (template ++ ".json")]

/-- Writes the files that differ from the picture. -/
private def develop (before after : FileTree) : IO Unit := do
  for (place, node) in after.nodes.reverse do
    unless before.node? place = some node do
      let path := "/" ++ String.intercalate "/" place
      match node with
      | .directory => IO.FS.createDirAll path
      | .file (.text s) => IO.FS.writeFile path s
      | .file (.binary bytes) => IO.FS.writeBinFile path ⟨bytes.toArray⟩

private def texts : TimeTexts where
  frame t := Number.padLeft 7 (Number.fixed 3 t)
  total t := Number.fixed 1 t
  submitted := "now"

/-- Plays a preview in real time. -/
private def playLive (player : Player) : IO Player := do
  let begun ← IO.monoNanosNow
  let mut p := player
  let mut now : UInt64 := 0
  repeat
    now := UInt64.ofNat ((← IO.monoNanosNow) - begun)
    let (next, step) := p.step now
    p := next
    match step with
    | .timeUp => break
    | .wait nanos => IO.sleep (UInt32.ofNat (nanos.toNat / 1000000 + 1))
    | .shown lines isLast =>
      for line in lines do IO.println (line.text texts)
      if isLast then break
  IO.println (p.footer texts now)
  return p.stop

/-- Writes the events that the filter lets through to the log file, or else to the error stream. -/
private def writeLog (settings : LogSettings) (level : String) (events : List Event) :
    IO Unit := do
  let lines := (events.filter (isLogged level)).map (logLine settings)
  match settings.file with
  | none => for line in lines do IO.eprintln line
  | some path =>
    try
      let handle ← IO.FS.Handle.mk path .append
      for line in lines do handle.putStrLn line
    catch _ => pure ()

private def environment : IO Environment := do
  let names := ["RUST_LOG", "HOME", "XDG_CONFIG_HOME", "XDG_DATA_HOME"]
  let found ← names.filterMapM fun name => return (← IO.getEnv name).map fun value => (name, value)
  return .ofList found

private def carryThrough (invocation : Invocation) : IO UInt32 := do
  let env ← environment
  let start := FileTree.startingIn (Path.parts (← IO.currentDir).toString)
  let c := Config.load env (← photographAll start [env.configPath])
  let paths := env.configPath :: c.logging.file.toList ++ pathsOf c invocation.command
  let files ← photographAll start paths
  let outcome := CommandLine.start ⟨env, files, [.sendingFails], texts⟩ invocation
  develop files outcome.progress.files
  IO.eprint outcome.progress.errors
  IO.print outcome.progress.output
  let played ← match outcome.player with
    | some player => (·.stage.log) <$> playLive player
    | none => pure []
  writeLog c.logging (logLevel env c.logging invocation.verbose) (outcome.progress.events ++ played)
  return UInt32.ofNat outcome.code

/-- Runs the program; without a command it only tells how it is used. -/
def runArguments (arguments : List String) : IO UInt32 := do
  match Invocation.ofArguments arguments with
  | .ok invocation => carryThrough invocation
  | .error refusal =>
    if refusal = .described then IO.println usage else IO.eprintln usage
    return UInt32.ofNat refusal.code

end MotionTemplate.CommandLine

def main (arguments : List String) : IO UInt32 :=
  MotionTemplate.CommandLine.runArguments arguments
