import LineCoach.Tree.Basic

/-!
# Building a tree

A builder takes the nodes of a tree in source order: a node is opened, what follows becomes its
descendant, and the node is closed again. The root is open from the start and stays open until
the tree is built, so closing too often does no harm, and nodes left open are closed at the end.
-/

namespace LineCoach.Tree

/-- The nodes so far, and the places of the open ones, the innermost first. -/
structure Builder where
  nodes : Array Node
  opened : List Nat
  placed : Placed nodes

namespace Builder

/-- Record the node at `child` as the last child of the node at `parent`, if it has a parent. -/
def link (nodes : Array Node) (parent : Option Nat) (child : Nat) : Array Node :=
  match parent with
  | none => nodes
  | some place => nodes.modify place (·.addChild child)

theorem size_link (nodes : Array Node) (parent : Option Nat) (child : Nat) :
    (link nodes parent child).size = nodes.size := by
  cases parent with
  | none => rfl
  | some place => exact Array.size_modify

theorem placed_link {nodes : Array Node} (h : Placed nodes) (parent : Option Nat) (child : Nat) :
    Placed (link nodes parent child) := by
  cases parent with
  | none => exact h
  | some place => exact h.modify place fun _ => rfl

/-- Open a node as the last child of the innermost open node. -/
def start (builder : Builder) (kind : Kind) (label : String) (span : Span) : Builder :=
  let id := builder.nodes.size
  let parent := builder.opened.head?
  { nodes := (link builder.nodes parent id).push
      { id, kind, label, span, parent, children := [], subtreeEnd := id + 1, detail := none }
    opened := id :: builder.opened
    placed := (placed_link builder.placed parent id).push (size_link _ _ _).symm }

/-- A builder whose root is open. -/
def new (label : String) (span : Span) : Builder :=
  start ⟨#[], [], .empty⟩ .other label span

/-- Record where the subtree of the node at `place` ends: behind the last node so far. -/
def close (nodes : Array Node) (place : Nat) : Array Node :=
  let size := nodes.size
  nodes.modify place (·.endAt size)

theorem placed_close {nodes : Array Node} (h : Placed nodes) (place : Nat) :
    Placed (close nodes place) :=
  h.modify place fun _ => rfl

/-- Close the innermost open node, unless it is the root. -/
def finish (builder : Builder) : Builder :=
  match builder.opened with
  | place :: next :: more =>
    ⟨close builder.nodes place, next :: more, placed_close builder.placed place⟩
  | _ => builder

/-- Add a node without children. -/
def leaf (builder : Builder) (kind : Kind) (label : String) (span : Span) : Builder :=
  (builder.start kind label span).finish

/-- Attach detail to the node at a place; a place without a node is ignored. -/
def attach (builder : Builder) (place : Nat) (detail : Detail) : Builder :=
  { builder with
    nodes := builder.nodes.modify place (·.withDetail detail)
    placed := builder.placed.modify place fun _ => rfl }

/-- The nodes with all that is open closed. -/
def closed (builder : Builder) : Array Node :=
  builder.opened.foldl close builder.nodes

theorem placed_foldl_close {nodes : Array Node} (h : Placed nodes) (opened : List Nat) :
    Placed (opened.foldl close nodes) := by
  induction opened generalizing nodes with
  | nil => exact h
  | cons place rest ih => exact ih (placed_close h place)

/-- Close what is open and index the tree by line. -/
def build (builder : Builder) : Tree :=
  Tree.ofNodes builder.closed (placed_foldl_close builder.placed builder.opened)

/-- One operation on a builder. -/
inductive Step where
  | start (kind : Kind) (label : String) (span : Span)
  | leaf (kind : Kind) (label : String) (span : Span)
  | finish
  | attach (place : Nat) (detail : Detail)
deriving DecidableEq, Repr

namespace Step

/-- Whether the operation adds a node. -/
def addsNode : Step → Bool
  | start .. => true
  | leaf .. => true
  | _ => false

end Step

/-- Carry out one operation. -/
def apply (builder : Builder) : Step → Builder
  | .start kind label span => builder.start kind label span
  | .leaf kind label span => builder.leaf kind label span
  | .finish => builder.finish
  | .attach place detail => builder.attach place detail

end Builder

/-- A tree given by the operations that build it. -/
structure Script where
  label : String
  span : Span
  steps : List Builder.Step
deriving DecidableEq, Repr

namespace Script

/-- The builder after all steps. -/
def run (script : Script) : Builder :=
  script.steps.foldl Builder.apply (Builder.new script.label script.span)

/-- The tree that the steps build. -/
def build (script : Script) : Tree :=
  script.run.build

/-- The places of the nodes that the steps add, with nothing for a step that adds none. -/
def places : (next : Nat) → List Builder.Step → List (Option Nat)
  | _, [] => []
  | next, step :: rest =>
    if step.addsNode then some next :: places (next + 1) rest else none :: places next rest

/-- What each step answers: the place of the node that it adds, or nothing. -/
def answers (script : Script) : List (Option Nat) :=
  places 1 script.steps

end Script

end LineCoach.Tree
