/-!
# Positions and spans

A position is a line counted from one and a character column counted from zero. A span runs
from the first position of a node to the position just behind it.
-/

namespace LineCoach.Tree

/-- A point of a source text. -/
structure Position where
  /-- Line number, counted from one. -/
  line : Nat
  /-- Column in characters, counted from zero. -/
  column : Nat
deriving DecidableEq, Repr, Inhabited

namespace Position

/-- Positions are ordered by line and then by column. -/
instance : Ord Position where
  compare p q := (compare p.line q.line).then (compare p.column q.column)

instance : LE Position where
  le p q := p.line < q.line ∨ (p.line = q.line ∧ p.column ≤ q.column)

instance (p q : Position) : Decidable (p ≤ q) :=
  inferInstanceAs (Decidable (p.line < q.line ∨ (p.line = q.line ∧ p.column ≤ q.column)))

end Position

/-- The part of a source text that a node covers. -/
structure Span where
  /-- First position of the node. -/
  start : Position
  /-- Position just behind the node. -/
  stop : Position
deriving DecidableEq, Repr, Inhabited

namespace Span

/-- Whether the span starts and stops on one line. -/
def isSingleLine (span : Span) : Bool :=
  span.start.line = span.stop.line

/-- Whether all of the span is on `line`. -/
def liesOn (span : Span) (line : Nat) : Bool :=
  span.isSingleLine && span.start.line = line

/-- Whether both spans cover one and the same single line. -/
def sharesLineWith (span other : Span) : Bool :=
  span.isSingleLine && other.isSingleLine && span.start.line = other.start.line

end Span

end LineCoach.Tree
