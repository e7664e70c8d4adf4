import LineCoach.Classifier.Basic
import LineCoach.Config.Basic

/-!
# Lines packed with operators

The measure of a line is the number of operands that are joined by the binary operators lying
entirely on it. An operator inside another is no operand, and parentheses around it do not make
it one, so `a + b * c` has three operands and `(a + b) * (c + d)` has four.
-/

namespace LineCoach

/-- Limits of the rule. -/
structure ExtractVariable where
  /-- Operands that a line may have. -/
  maxOperands : Nat := 4
deriving DecidableEq, Repr

namespace ExtractVariable

/-- The name of the rule. -/
def name : String := "extract-variable"

/-- Step from a node in parentheses to its first child that is no comment, at most `fuel` times. -/
def unwrapWithin (tree : Tree) : (fuel : Nat) → Tree.Node → Tree.Node
  | 0, node => node
  | fuel + 1, node =>
    if node.is .parenthesized then
      match (tree.children node).find? (fun child => !child.is .comment) with
      | some inner => unwrapWithin tree fuel inner
      | none => node
    else node

/-- The innermost expression of `((...))`, and the node itself when it has no parentheses. Each
step goes down in the tree, so there are fewer steps than nodes. -/
def unwrap (tree : Tree) (node : Tree.Node) : Tree.Node :=
  unwrapWithin tree tree.size node

/-- Whether a child of an operator is an operand and not an operator or a comment. -/
def isOperand (tree : Tree) (child : Tree.Node) : Bool :=
  let inner := unwrap tree child
  !inner.is .binaryOperator && !inner.is .comment

/-- The operands of an operator, which are its children that are not operators themselves. -/
def operands (tree : Tree) (node : Tree.Node) : List Tree.Node :=
  (tree.children node).filter (isOperand tree)

/-- The operators below the anchor that lie entirely on the line. -/
def operators (context : LineContext) : List Tree.Node :=
  context.anchorSubtree.filter fun node =>
    node.is .binaryOperator && node.span.liesOn context.location.line

/-- The number of operands on the line. -/
def measure (context : LineContext) : Nat :=
  ((operators context).flatMap (operands context.tree)).length

/-- The rule with the limits of a configuration. -/
def ofConfig (config : Config) : ExtractVariable where
  maxOperands := config.limit name "max_operands" 4

/-- The limits in words. -/
def describe (rule : ExtractVariable) : String :=
  s!"ExtractVariable \x7b max_operands: {rule.maxOperands} \x7d"

/-- Suggests names for intermediate results. -/
def classifier (rule : ExtractVariable) : Classifier where
  name := name
  code := "LL002"
  description := "Suggests storing parts of long expressions in named variables"
  classify context :=
    .ok (if rule.maxOperands < measure context then [.extractVariable] else [])
  notes context :=
    [⟨.trace, s!"line {context.location.line}: {measure context} operands"⟩]

end ExtractVariable

end LineCoach
