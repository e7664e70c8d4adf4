import LineCoach.Event
import LineCoach.Log
import LineCoach.Tree.Basic

/-!
# Classifiers

A classifier looks at one long line and says why it is long. It sees the first node that starts
on the line and the whole tree, and it neither changes the tree nor publishes anything.
-/

namespace LineCoach

/-- What a classifier may look at. -/
structure LineContext where
  location : Location
  /-- The first node that starts on the line. -/
  anchor : Tree.Node
  tree : Tree

namespace LineContext

/-- The nodes that occupy the line, the anchor first. -/
def sameLineNodes (context : LineContext) : List Tree.Node :=
  context.tree.sameLineNodes context.anchor

/-- The anchor and its descendants. -/
def anchorSubtree (context : LineContext) : List Tree.Node :=
  context.tree.subtree context.anchor

end LineContext

/-- Why a line could not be classified. -/
inductive ClassifyError where
  /-- A node lacks the detail that its kind promises. -/
  | missingDetail (classifier : String) (kind : Tree.Kind) (line : Nat) (expected : String)
deriving DecidableEq, Repr

namespace ClassifyError

/-- The error in words. -/
def message : ClassifyError → String
  | missingDetail classifier kind line expected =>
    s!"{classifier}: {kind.name} node on line {line} has no {expected} detail"

end ClassifyError

/-- A rule that explains long lines. -/
structure Classifier where
  name : String
  code : String
  description : String
  classify : LineContext → Except ClassifyError (List Violation)
  /-- What is logged while a line is classified. -/
  notes : LineContext → List Log.Entry := fun _ => []

end LineCoach
