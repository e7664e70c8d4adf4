import LineCoach.Event
import LineCoach.Log

/-!
# Runs

A run does things one after the other: it logs, it publishes events, and in the end it has a
result or fails. What it did before it failed is done.
-/

namespace LineCoach

/-- Something that happens in a run. -/
inductive Occurrence where
  | logged (entry : Log.Entry)
  | published (event : Event)
deriving DecidableEq, Repr

namespace Occurrence

/-- The log entry, when it is one. -/
def entry? : Occurrence → Option Log.Entry
  | logged entry => some entry
  | published _ => none

/-- The event, when it is one. -/
def event? : Occurrence → Option Event
  | logged _ => none
  | published event => some event

end Occurrence

/-- What happened, in order, and how it ended. -/
structure Run (ε α : Type) where
  trace : List Occurrence
  outcome : Except ε α

namespace Run

variable {ε α β : Type}

/-- Nothing happens, and the result is `a`. -/
protected def pure (a : α) : Run ε α :=
  ⟨[], .ok a⟩

/-- Go on with the result of a run. A failure ends the run. -/
protected def bind (run : Run ε α) (next : α → Run ε β) : Run ε β :=
  match run.outcome with
  | .error e => ⟨run.trace, .error e⟩
  | .ok a => ⟨run.trace ++ (next a).trace, (next a).outcome⟩

instance : Monad (Run ε) where
  pure := Run.pure
  bind := Run.bind

/-- The run fails. -/
def fail (e : ε) : Run ε α :=
  ⟨[], .error e⟩

/-- Write a log entry. -/
def log (entry : Log.Entry) : Run ε Unit :=
  ⟨[.logged entry], .ok ()⟩

/-- Write log entries in order. -/
def logAll (entries : List Log.Entry) : Run ε Unit :=
  ⟨entries.map .logged, .ok ()⟩

/-- Publish an event. -/
def publish (event : Event) : Run ε Unit :=
  ⟨[.published event], .ok ()⟩

/-- The log entries, in order. -/
def entries (run : Run ε α) : List Log.Entry :=
  run.trace.filterMap Occurrence.entry?

/-- The published events, in order. -/
def events (run : Run ε α) : List Event :=
  run.trace.filterMap Occurrence.event?

end Run

end LineCoach
