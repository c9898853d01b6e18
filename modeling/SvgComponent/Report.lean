import SvgComponent.Json.Value

/-!
# Reports

A run ends with a report of the components it made and of the files it could not convert. It is
written for people (`Report.human`) or as JSON (`Report.json`).
-/

namespace SvgComponent

/-- The two ways to write a report. -/
inductive ReportFormat where
  | human
  | json
  deriving DecidableEq, Repr

/-- A component that was made, with the name of its file. -/
structure Compiled where
  file : String
  componentName : String
  deriving DecidableEq, Repr

/-- A file that could not be converted. -/
structure Failed where
  file : String
  message : String
  deriving DecidableEq, Repr

/-- What a run did, and how many microseconds it took. -/
structure Report where
  targets : List Compiled := []
  failures : List Failed := []
  elapsed : Nat := 0
  deriving DecidableEq, Repr

namespace Report

/-- Whether some file could not be converted. -/
def hasFailures (report : Report) : Bool :=
  !report.failures.isEmpty

/-- The time in full milliseconds. -/
def milliseconds (report : Report) : Nat :=
  report.elapsed / 1000

/-- One line that says how much was done. -/
def summary (report : Report) : String :=
  let failed := if report.hasFailures then s!", {report.failures.length} failed" else ""
  s!"Compiled {report.targets.length} icons in {report.milliseconds}ms{failed}"

/-- The report for people : each failure, then the summary. -/
def human (report : Report) : String :=
  let failure (f : Failed) := s!"Error: {f.file}\n{f.message}\n\n"
  String.join (report.failures.map failure) ++ report.summary ++ "\n"

/-- The report as a value. -/
def toJson (report : Report) : Json :=
  let count (n : Nat) : Json := .number (.natural n)
  .object [
    ("compiled", count report.targets.length),
    ("elapsedMs", count report.milliseconds),
    ("targets", .array (report.targets.map fun t =>
      .object [("file", .string t.file), ("componentName", .string t.componentName)])),
    ("failures", .array (report.failures.map fun f =>
      .object [("file", .string f.file), ("message", .string f.message)]))]

/-- The report as JSON. -/
def json (report : Report) : String :=
  String.ofList report.toJson.pretty ++ "\n"

/-- The report in one of the two ways. -/
def text (report : Report) : ReportFormat → String
  | .human => report.human
  | .json => report.json

end Report

end SvgComponent
