import LineCoach.Json
import LineCoach.Path.Basic
import LineCoach.Violation

/-!
# Feedback events

An event says what is wrong with one line of one file. It carries the guidance and the line
itself, so that a report needs nothing else.
-/

namespace LineCoach

/-- Where a long line was found. -/
structure Location where
  path : Path
  /-- Line number, counted from one. -/
  line : Nat
  /-- The line with its terminator. -/
  text : String
deriving DecidableEq, Repr

namespace Location

/-- The line without its terminator. -/
def code (location : Location) : String :=
  String.ofList (Text.dropEndWhile (fun c => c = '\n' || c = '\r') location.text.toList)

/-- Number of characters of the line, its terminator included. -/
def length (location : Location) : Nat :=
  location.text.length

end Location

/-- A violation and where it is. -/
structure Event where
  kind : Violation
  location : Location
deriving DecidableEq, Repr

namespace Event

/-- The advice given with the event. -/
def text (event : Event) : String :=
  event.kind.guidance

/-- The offending line without its terminator. -/
def snippet (event : Event) : String :=
  event.location.code

/-- The file the line belongs to. -/
def path (event : Event) : Path :=
  event.location.path

/-- The number of the line. -/
def line (event : Event) : Nat :=
  event.location.line

/-- The event on one line, with the whole path. -/
def summary (event : Event) : String :=
  s!"{event.path.text}:{event.line}: [{event.kind.code}] {event.text}"

/-- The event on three lines, for a terminal. -/
def paragraph (event : Event) : String :=
  s!"{event.kind.code} at {event.path.short}:{event.line}\n"
    ++ s!"  | {event.snippet}\n"
    ++ s!"  = help: {event.text}\n"

/-- The kind of a violation as a JSON value: its name, or a member with its number. -/
def kindJson (kind : Violation) : JsonValue :=
  match kind.count? with
  | none => .string kind.tag
  | some count => .object [(kind.tag, .number count)]

/-- The event as a JSON value. -/
def json (event : Event) : JsonValue :=
  .object
    [("kind", kindJson event.kind),
     ("text", .string event.text),
     ("location", .object
       [("line_number", .number event.line),
        ("line_text", .string event.location.text),
        ("path", .string event.path.text)]),
     ("code_snippet", .string event.snippet)]

end Event

/-- An event prepared for a display with annotated source. -/
structure Diagnostic where
  message : String
  help : String
  /-- The short path and the line, as the name of the snippet. -/
  source : String
  snippet : String
  /-- What is written at the annotated part, which is the whole snippet. -/
  label : String
deriving DecidableEq, Repr

namespace Diagnostic

/-- The diagnostic of an event. -/
def ofEvent (event : Event) : Diagnostic where
  message :=
    s!"[{event.kind.code}] line {event.line} is {event.location.length} characters long"
  help := event.text
  source := s!"{event.path.short}:{event.line}"
  snippet := event.snippet
  label := event.kind.code

/-- The annotated part of the snippet: its first byte and its number of bytes. -/
def span (diagnostic : Diagnostic) : Nat × Nat :=
  (0, diagnostic.snippet.utf8ByteSize)

end Diagnostic

end LineCoach
