import LineCoach.Path.Basic

/-!
# Maps keyed by path

Entries stand in the order in which their keys were first seen. A key is found under every
spelling of the path, and the first spelling is the one kept.
-/

namespace LineCoach

/-- Values by path, in the order of first appearance. -/
structure PathMap (α : Type) where
  entries : List (Path × α) := []

namespace PathMap

variable {α : Type}

/-- The map without entries. -/
def empty : PathMap α := {}

/-- The value under a path. -/
def get? (map : PathMap α) (path : Path) : Option α :=
  (map.entries.find? fun entry => entry.1.Same path).map Prod.snd

/-- Change the value under `path` in a list of entries, or add one made from `initial`. -/
def updateEntries (path : Path) (initial : α) (change : α → α) :
    List (Path × α) → List (Path × α)
  | [] => [(path, change initial)]
  | (key, value) :: rest =>
    if key.Same path then (key, change value) :: rest
    else (key, value) :: updateEntries path initial change rest

/-- Change the value under `path`; a path that is new starts from `initial` and comes last. -/
def update (map : PathMap α) (path : Path) (initial : α) (change : α → α) : PathMap α :=
  ⟨updateEntries path initial change map.entries⟩

/-- The keys in order. -/
def keys (map : PathMap α) : List Path :=
  map.entries.map Prod.fst

/-- Whether the map has no entry. -/
def isEmpty (map : PathMap α) : Bool :=
  map.entries.isEmpty

end PathMap

end LineCoach
