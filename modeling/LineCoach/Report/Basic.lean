import LineCoach.Analyzer.Scan
import LineCoach.Feedback

/-!
# Reports

What is printed about a scan: a text grouped by file, a JSON document, one line an event, or
annotated snippets.
-/

namespace LineCoach

/-- The forms of a report. -/
inductive Format where
  | text
  | json
  | compact
  | pretty
deriving DecidableEq, Repr

namespace Format

/-- The name of a form on the command line. -/
def name : Format → String
  | text => "text"
  | json => "json"
  | compact => "compact"
  | pretty => "pretty"

/-- The form with this name. -/
def ofName? (name : String) : Option Format :=
  [text, json, compact, pretty].find? (·.name = name)

theorem ofName?_name (format : Format) : ofName? format.name = some format := by
  cases format <;> decide

end Format

/-- What a report tells about: the events of a scan as they were counted and collected, and the
summary of the scan. -/
structure Report where
  counter : Counter
  collector : Collector
  summary : Summary

namespace Report

/-- The report on a scan with these events. -/
def ofEvents (events : List Event) (summary : Summary) : Report where
  counter := Subscriber.receiveAll {} events
  collector := Subscriber.receiveAll {} events
  summary := summary

/-- Text in a style of the terminal, which is given by its number. -/
def styled (style : Nat) (text : String) : String :=
  s!"\x1b[{style}m{text}\x1b[0m"

/-- The events of each file under the file's name. -/
def groupsText (report : Report) : String :=
  String.join <| report.collector.displayGroups.map fun (path, events) =>
    styled 1 path ++ "\n" ++ String.join (events.map fun event => event.paragraph ++ "\n")

/-- The number of events of each file. -/
def countsText (report : Report) : String :=
  if report.counter.perFile.isEmpty then ""
  else
    "Feedback per file:\n"
      ++ String.join (report.counter.perFile.entries.map fun (path, count) =>
        s!"  {path.short}: {count}\n")
      ++ "\n"

/-- The last lines: what was found in all, and what was skipped. -/
def totalsText (report : Report) : String :=
  let total := report.counter.total
  let summary := report.summary
  styled (if 0 < total then 33 else 32)
      (s!"Found {total} feedback item(s) on {summary.linesFlagged} long line(s) "
        ++ s!"in {summary.filesChecked} file(s)")
    ++ "\n"
    ++ if 0 < summary.filesSkipped then s!"Skipped {summary.filesSkipped} unparseable file(s)\n"
      else ""

/-- The report as a text for people. -/
def text (report : Report) : String :=
  report.groupsText ++ report.countsText ++ report.totalsText

/-- A summary as a JSON value. -/
def summaryJson (summary : Summary) : JsonValue :=
  .object
    [("files_checked", .number summary.filesChecked),
     ("files_skipped", .number summary.filesSkipped),
     ("lines_flagged", .number summary.linesFlagged),
     ("lines_unresolved", .number summary.linesUnresolved),
     ("feedback_published", .number summary.feedbackPublished)]

/-- The report as a JSON value. -/
def json (report : Report) : JsonValue :=
  .object
    [("summary", summaryJson report.summary),
     ("total", .number report.counter.total),
     ("per_file", .object (report.counter.perFile.entries.map fun (path, count) =>
       (path.text, .number count))),
     ("feedback", .array (report.collector.feedback.map Event.json))]

/-- One line for each event. -/
def compact (report : Report) : String :=
  String.join (report.collector.feedback.map fun event => event.summary ++ "\n")

/-- A character several times. -/
def repeated (count : Nat) (c : Char) : String :=
  String.ofList (List.replicate count c)

/-- A snippet with the whole of it marked, a label at the middle of the mark, and advice. -/
def annotated (diagnostic : Diagnostic) : String :=
  let width := diagnostic.snippet.length
  let middle := width / 2
  let mark := repeated middle '^' ++ "|" ++ repeated (width - middle - 1) '^'
  let margin := repeated middle ' '
  s!"  x {diagnostic.message}\n"
    ++ s!"   ,-[{diagnostic.source}:1:1]\n"
    ++ s!" 1 | {diagnostic.snippet}\n"
    ++ s!"   : {mark}\n"
    ++ s!"   : {margin}`-- {diagnostic.label}\n"
    ++ "   `----\n"
    ++ s!"  help: {diagnostic.help}\n"

/-- An annotated snippet for each event. -/
def pretty (report : Report) : String :=
  String.join (report.collector.feedback.map fun event =>
    annotated (Diagnostic.ofEvent event) ++ "\n")

/-- The report in a form. -/
def render (report : Report) : Format → String
  | .text => report.text
  | .json => report.json.render ++ "\n"
  | .compact => report.compact
  | .pretty => report.pretty

end Report

end LineCoach
