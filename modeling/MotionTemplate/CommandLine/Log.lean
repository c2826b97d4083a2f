import MotionTemplate.Config
import MotionTemplate.Json.Printer

/-! The log of the program: which events go into it, and as what lines. -/
namespace MotionTemplate.CommandLine

/-- The filters by name, with the least important rank that each of them lets through. -/
def logLevels : List (String × Nat) := [("warn", 0), ("info", 1), ("debug", 2), ("trace", 3)]

/-- The filter in effect. The environment goes before the command line, and that before the
configuration. -/
def logLevel (env : Environment) (settings : LogSettings) (verbose : Bool) : String :=
  (env.find? "RUST_LOG").getD (if verbose then "debug" else settings.level)

/-- Whether a filter lets an event through. Filters without a name stop everything. -/
def isLogged (level : String) (e : Event) : Bool :=
  (KeyMap.lookup level logLevels).any fun least => e.severity.rank ≤ least

private def severityText : Severity → String
  | .warning => "WARN"
  | .info => "INFO"
  | .debug => "DEBUG"
  | .trace => "TRACE"

private def detailJson : Detail → Json
  | .number x => .ofFloat x
  | .count n => .ofNat n
  | .text s => .string s

private def eventJson (e : Event) : Json :=
  .object [("level", .string (severityText e.severity)), ("message", .string e.message),
    ("fields", .object (e.details.map fun d => (d.1, detailJson d.2)))]

private def detailText : Detail → String
  | .number x => Number.Layout.diagnostic.render x
  | .count n => toString n
  | .text s => s

/-- The line of an event, as plain text or as data. -/
def logLine (settings : LogSettings) (e : Event) : String :=
  if settings.json then (eventJson e).compact
  else
    String.intercalate " " <|
      severityText e.severity :: e.message :: e.details.map fun d => d.1 ++ "=" ++ detailText d.2

end MotionTemplate.CommandLine
