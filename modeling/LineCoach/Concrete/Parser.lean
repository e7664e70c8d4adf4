import LineCoach.Concrete.FirstError
import LineCoach.Concrete.Lowering
import LineCoach.Parser

/-!
# Parsing by a grammar

A grammar gives the concrete tree of a text, or none when it does not come to an end. A concrete
tree with errors is refused, and the others are lowered.
-/

namespace LineCoach.Concrete

/-- The concrete tree of each text that the grammar can deal with in the time it has. -/
abbrev Grammar := String → Option Node

/-- Lower a concrete tree without errors. -/
def treeOf (content : String) (root : Node) : Except ParseError Tree :=
  let source := Source.ofString content
  if root.info.hasError then .error (.malformed (firstError source root))
  else .ok (lower source root)

/-- The parser of a grammar of Python. -/
def Grammar.parser (grammar : Grammar) : SourceParser where
  language := "python"
  extensions := ["py"]
  parse content := match grammar content with
    | some root => treeOf content root
    | none => .error .aborted
  parseWithin budget content := match grammar content with
    | some root => treeOf content root
    | none => .error (.timedOut budget)
  notes tree := [⟨.debug, s!"Lowered {tree.size} nodes"⟩]

end LineCoach.Concrete
