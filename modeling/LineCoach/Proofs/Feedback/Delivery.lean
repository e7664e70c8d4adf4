import LineCoach.Feedback
import LineCoach.Proofs.Path.Map

/-!
# What subscribers hold in the end

A bus delivers event by event to one subscriber after the other. For each subscriber this comes to
the same as taking in all events at once: a step lemma says so for one event, and the run lemma for
any number of them. The two subscribers at hand fill a path map on the way, so what they hold is
read off the entries of that map.
-/

namespace LineCoach

namespace Subscriber

variable {σ τ : Type} [Subscriber σ] [Subscriber τ]

@[simp]
theorem receiveAll_nil (state : σ) : receiveAll state [] = state := rfl

@[simp]
theorem receiveAll_cons (state : σ) (event : Event) (rest : List Event) :
    receiveAll state (event :: rest) = receiveAll (receive state event) rest := rfl

/-- A choice between two kinds of subscribers takes in events as the one that it is. -/
theorem receiveAll_sum (state : σ ⊕ τ) (events : List Event) :
    receiveAll state events = state.map (receiveAll · events) (receiveAll · events) := by
  induction events generalizing state with
  | nil => cases state <;> rfl
  | cons event rest ih =>
    rw [receiveAll_cons, ih]
    cases state <;> rfl

end Subscriber

namespace Bus

variable {σ : Type}

/-- Subscribers stand in the order in which they are registered. -/
theorem subscribers_registerAll (bus : Bus σ) (registered : List σ) :
    (registered.foldl register bus).subscribers = bus.subscribers ++ registered := by
  induction registered generalizing bus with
  | nil => exact (List.append_nil _).symm
  | cons subscriber rest ih =>
    rw [List.foldl_cons, ih]
    exact List.append_assoc ..

variable [Subscriber σ]

/-- Every subscriber takes in all events, whoever else listens. -/
theorem subscribers_publishAll (bus : Bus σ) (events : List Event) :
    (bus.publishAll events).subscribers =
      bus.subscribers.map (Subscriber.receiveAll · events) := by
  induction events generalizing bus with
  | nil => exact (List.map_id _).symm
  | cons event rest ih =>
    rw [publishAll, List.foldl_cons, ← publishAll, ih, publish, List.map_map]
    rfl

end Bus

/-- Keys stand for paths: one for each place that the paths name, in the order in which the places
first appear, and in the spelling that was seen first. -/
structure Path.KeysOf (keys paths : List Path) : Prop where
  eq_firstSpellings : keys = firstSpellings paths
  distinct : keys.Pairwise fun key later => ¬ key.Same later
  first_spelling (place : Path) :
    keys.find? (fun key => key.Same place) = paths.find? fun path => path.Same place

/-- The first spellings of paths stand for them. -/
theorem Path.keysOf_firstSpellings (paths : List Path) : KeysOf (firstSpellings paths) paths where
  eq_firstSpellings := rfl
  distinct := pairwise_firstSpellings paths
  first_spelling := find?_firstSpellings paths

namespace Counter

open Subscriber (receiveAll)

/-- A counter that has taken in events has counted each, and put it down under its path. -/
theorem receiveAll_eq (counter : Counter) (events : List Event) :
    receiveAll counter events =
      { total := counter.total + events.length
        perFile := events.foldl (fun map event => map.update event.path 0 (· + 1))
          counter.perFile } := by
  induction events generalizing counter with
  | nil => rfl
  | cons event rest ih =>
    rw [Subscriber.receiveAll_cons, ih, List.length_cons, List.foldl_cons, Nat.add_comm rest.length,
      ← Nat.add_assoc]
    rfl

/-- The numbers by file of a new counter that has taken in events. -/
theorem perFile_receiveAll (events : List Event) :
    (receiveAll ({} : Counter) events).perFile =
      PathMap.gather Event.path 0 (fun count _ => count + 1) events := by
  rw [receiveAll_eq]
  rfl

/-- The counter has counted these events, all of them and by file. -/
structure Tallies (counter : Counter) (events : List Event) : Prop where
  total : counter.total = events.length
  countFor (path : Path) :
    counter.countFor path = events.countP fun event => event.path.Same path
  keys : Path.KeysOf counter.perFile.keys (events.map Event.path)

/-- A new counter counts the events that it takes in. -/
theorem tallies_receiveAll (events : List Event) :
    (receiveAll ({} : Counter) events).Tallies events where
  total := by
    rw [receiveAll_eq]
    exact Nat.zero_add _
  countFor path := by
    rw [countFor, perFile_receiveAll, PathMap.get?_gather, List.countP_eq_length_filter]
    change _ = (PathMap.itemsOf Event.path events path).length
    split
    · simp only [List.foldl_add_const, Nat.one_mul, Nat.zero_add, Option.getD_some]
    · next hnone => rw [(PathMap.itemsOf_eq_nil_iff ..).2 hnone]; rfl
  keys := by
    rw [perFile_receiveAll, PathMap.keys_gather]
    exact Path.keysOf_firstSpellings _

end Counter

namespace Collector

open Subscriber (receiveAll)

/-- A collector that has taken in events has kept each, and put it down under its path. -/
theorem receiveAll_eq (collector : Collector) (events : List Event) :
    receiveAll collector events =
      { feedback := collector.feedback ++ events
        perFile := events.foldl (fun map event => map.update event.path [] (· ++ [event]))
          collector.perFile } := by
  induction events generalizing collector with
  | nil => rw [List.append_nil]; rfl
  | cons event rest ih =>
    rw [Subscriber.receiveAll_cons, ih, List.foldl_cons, List.append_cons]
    rfl

/-- The groups of a new collector that has taken in events. -/
theorem perFile_receiveAll (events : List Event) :
    (receiveAll ({} : Collector) events).perFile =
      PathMap.gather Event.path [] (fun group event => group ++ [event]) events := by
  rw [receiveAll_eq]
  rfl

/-- A group that events are added to one by one holds these events. -/
theorem foldl_group (events : List Event) :
    events.foldl (fun group event => group ++ [event]) [] = events := by
  rw [List.foldl_append_eq_append, List.nil_append, ← List.flatMap_def, List.flatMap_singleton']

/-- The collector has kept these events, in order and by file. A file without events has no
group. -/
structure Keeps (collector : Collector) (events : List Event) : Prop where
  feedback : collector.feedback = events
  feedbackFor? (path : Path) :
    collector.feedbackFor? path =
      if ∃ event ∈ events, event.path.Same path then
        some (events.filter fun event => event.path.Same path)
      else none
  keys : Path.KeysOf collector.perFile.keys (events.map Event.path)

/-- A new collector keeps the events that it takes in. -/
theorem keeps_receiveAll (events : List Event) :
    (receiveAll ({} : Collector) events).Keeps events where
  feedback := by rw [receiveAll_eq]; rfl
  feedbackFor? path := by
    rw [Collector.feedbackFor?, perFile_receiveAll, PathMap.get?_gather, foldl_group]
    rfl
  keys := by
    rw [perFile_receiveAll, PathMap.keys_gather]
    exact Path.keysOf_firstSpellings _

end Collector

/-- Whoever is registered beside it and wherever it stands, each subscriber ends in the state in
which taking in all events in order leaves it. For the two subscribers at hand that state tells how
many events there were and which, in all and by file, whatever the spelling of the paths. -/
theorem Bus.publishAll_delivers {τ : Type} [Subscriber τ]
    (registered : List (Counter ⊕ Collector ⊕ τ)) (events : List Event) :
    ((registered.foldl register {}).publishAll events).subscribers =
        registered.map (Sum.map (Subscriber.receiveAll · events)
          (Sum.map (Subscriber.receiveAll · events) (Subscriber.receiveAll · events))) ∧
      (Subscriber.receiveAll ({} : Counter) events).Tallies events ∧
      (Subscriber.receiveAll ({} : Collector) events).Keeps events := by
  refine ⟨?_, Counter.tallies_receiveAll events, Collector.keeps_receiveAll events⟩
  rw [subscribers_publishAll, subscribers_registerAll, List.nil_append]
  apply List.map_congr_left
  intro state _
  rw [Subscriber.receiveAll_sum]
  congr 1
  funext choice
  exact Subscriber.receiveAll_sum choice events

end LineCoach
