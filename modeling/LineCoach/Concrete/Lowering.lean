import LineCoach.Concrete.Cursor
import LineCoach.Concrete.Source
import LineCoach.Tree.Builder

/-!
# Lowering

A concrete tree becomes a syntax tree in one walk in source order. Tokens and the inner parts of
strings are dropped, wrappers without a meaning of their own hand their children to the node
around them, and every other node is kept. The walk remembers for each node that it went into
whether the builder opened a node for it, so that leaving the one closes the other.
-/

namespace LineCoach.Concrete

open LineCoach.Tree (Builder)

/-- What becomes of a concrete node. -/
inductive Role where
  /-- It becomes a node of the tree. -/
  | keep
  /-- It is dropped and its children belong to the node around it. -/
  | transparent
  /-- It is dropped with everything below it. -/
  | skip
deriving DecidableEq, Repr

/-- Wrappers around statements. -/
def transparentKinds : List String :=
  ["expression_statement", "block", "decorated_definition"]

/-- Inner parts of strings. A literal of several lines stays one node. -/
def stringPartKinds : List String :=
  ["string_start", "string_content", "string_end", "escape_sequence", "escape_interpolation"]

/-- The role of a concrete node. -/
def Node.role (n : Node) : Role :=
  if !n.info.named || stringPartKinds.contains n.kind then .skip
  else if transparentKinds.contains n.kind then .transparent
  else .keep

/-- Open a node of the tree for a concrete node, with its detail. -/
def openNode (source : Source) (builder : Builder) (n : Node) : Builder :=
  let place := builder.nodes.size
  let opened := builder.start (kindOf n.kind) n.kind (source.span n)
  match detail? source n with
  | some detail => opened.attach place detail
  | none => opened

/-- Leave the node under the cursor: go on to its next sibling, or to the next sibling of the
nearest node around it that has one, and close what was opened for the nodes that are left.
There is nothing to go on to when the walk is over. -/
def advance : (builder : Builder) → (cursor : Cursor) → (opened : List Bool) →
    Builder × Option (Cursor × List Bool)
  | builder, cursor, [] => (builder, cursor.nextSibling?.map fun next => (next, []))
  | builder, cursor, wasOpened :: rest =>
    match cursor.nextSibling? with
    | some next => (builder, some (next, wasOpened :: rest))
    | none =>
      match cursor.parent? with
      | none => (builder, none)
      | some up => advance (if wasOpened then builder.finish else builder) up rest

/-- Where the walk goes on, fewer nodes remain than there are from the node that was left. -/
theorem remaining_advance {builder : Builder} {cursor next : Cursor} {opened rest : List Bool}
    (h : (advance builder cursor opened).2 = some (next, rest)) :
    next.remaining ≤ cursor.behind := by
  induction opened generalizing builder cursor with
  | nil =>
    obtain ⟨found, hfound, heq⟩ := Option.map_eq_some_iff.1 h
    cases heq
    exact Nat.le_of_eq (Cursor.remaining_nextSibling hfound)
  | cons wasOpened opened ih =>
    simp only [advance] at h
    split at h
    · next found hfound =>
      cases h
      exact Nat.le_of_eq (Cursor.remaining_nextSibling hfound)
    · split at h
      · cases h
      · next up hup => exact Nat.le_trans (ih h) (Cursor.behind_parent hup)

/-- Visit the node under the cursor and all that follows in source order. `opened` tells, for
each node that the walk is in below its start, whether the builder opened a node for it. -/
def walk (source : Source) (builder : Builder) (cursor : Cursor) (opened : List Bool) : Builder :=
  let keeps := cursor.node.role = .keep
  let entered := if keeps then openNode source builder cursor.node else builder
  match _hchild : if cursor.node.role = .skip then none else cursor.firstChild? with
  | some child => walk source entered child (decide keeps :: opened)
  | none =>
    let left := if keeps then entered.finish else entered
    match _hnext : advance left cursor opened with
    | (done, none) => done
    | (gone, some (next, rest)) => walk source gone next rest
termination_by cursor.remaining
decreasing_by
  · split at _hchild
    · cases _hchild
    · exact Cursor.remaining_firstChild _hchild
  · have hstep : (advance left cursor opened).2 = some (next, rest) := by rw [_hnext]
    exact Nat.lt_of_le_of_lt (remaining_advance hstep) cursor.behind_lt_remaining

/-- The syntax tree of a concrete tree. The root is always kept. -/
def lower (source : Source) (root : Node) : Tree :=
  let builder := Builder.new root.kind (source.span root)
  match (Cursor.atRoot root).firstChild? with
  | none => builder.build
  | some child => (walk source builder child []).build

end LineCoach.Concrete
