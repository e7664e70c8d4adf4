import LineCoach.Event
import LineCoach.Path.Map

/-!
# Delivery of feedback

Every published event goes to each subscriber once, in the order in which the subscribers were
registered. A subscriber changes only its own state, so what it holds in the end does not depend
on who else listens. Two subscribers are at hand: one counts events by file, one keeps them.
-/

namespace LineCoach

/-- States that can take in events. -/
class Subscriber (σ : Type) where
  /-- The state after one more event. -/
  receive : σ → Event → σ

namespace Subscriber

variable {σ τ : Type}

/-- The state after a sequence of events. -/
def receiveAll [Subscriber σ] (state : σ) (events : List Event) : σ :=
  events.foldl receive state

/-- A choice between two kinds of subscribers listens as the one that it is. -/
instance [Subscriber σ] [Subscriber τ] : Subscriber (σ ⊕ τ) where
  receive
    | .inl state, event => .inl (receive state event)
    | .inr state, event => .inr (receive state event)

end Subscriber

/-- The registered subscribers, in the order of registration. -/
structure Bus (σ : Type) where
  subscribers : List σ := []

namespace Bus

variable {σ : Type}

/-- Add a subscriber behind those that are registered. -/
def register (bus : Bus σ) (subscriber : σ) : Bus σ :=
  ⟨bus.subscribers ++ [subscriber]⟩

/-- Deliver an event to every subscriber, once each. -/
def publish [Subscriber σ] (bus : Bus σ) (event : Event) : Bus σ :=
  ⟨bus.subscribers.map (Subscriber.receive · event)⟩

/-- Deliver a sequence of events. -/
def publishAll [Subscriber σ] (bus : Bus σ) (events : List Event) : Bus σ :=
  events.foldl publish bus

/-- The bus in words. -/
def describe (bus : Bus σ) : String :=
  s!"FeedbackBus \x7b subscribers: {bus.subscribers.length} \x7d"

end Bus

/-- Counts events, by file and in all. -/
structure Counter where
  total : Nat := 0
  perFile : PathMap Nat := .empty

namespace Counter

/-- Number of events of a file. -/
def countFor (counter : Counter) (path : Path) : Nat :=
  (counter.perFile.get? path).getD 0

instance : Subscriber Counter where
  receive counter event :=
    { total := counter.total + 1
      perFile := counter.perFile.update event.path 0 (· + 1) }

end Counter

/-- Keeps every event, in the order of publication and by file. -/
structure Collector where
  feedback : List Event := []
  perFile : PathMap (List Event) := .empty

namespace Collector

/-- The events of a file, when there are any. -/
def feedbackFor? (collector : Collector) (path : Path) : Option (List Event) :=
  collector.perFile.get? path

/-- Whether nothing was collected. -/
def isEmpty (collector : Collector) : Bool :=
  collector.feedback.isEmpty

/-- The events of each file under the short form of its path. -/
def displayGroups (collector : Collector) : List (String × List Event) :=
  collector.perFile.entries.map fun (path, events) => (path.short, events)

instance : Subscriber Collector where
  receive collector event :=
    { feedback := collector.feedback ++ [event]
      perFile := collector.perFile.update event.path [] (· ++ [event]) }

end Collector

/-- Writes down one line for each event, headed by its own name. -/
structure Recorder where
  name : String
  lines : List String := []

namespace Recorder

instance : Subscriber Recorder where
  receive recorder event :=
    { recorder with lines := recorder.lines ++ [recorder.name ++ "<" ++ event.summary] }

end Recorder

end LineCoach
