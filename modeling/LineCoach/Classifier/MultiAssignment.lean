import LineCoach.Classifier.Basic

/-!
# Several assignments at once

A line that binds several names to as many values, as in `a, b = 1, 2`. Taking apart one value,
as in `a, b = pair()`, is left alone.
-/

namespace LineCoach.MultiAssignment

/-- The name of the rule. -/
def name : String := "multi-assignment"

/-- Whether an assignment could be split into one for each name. -/
def splits (shape : Tree.AssignmentShape) : Bool :=
  1 < shape.targets && shape.targets = shape.values

/-- Classify a line by its first node. -/
def classify (context : LineContext) : Except ClassifyError (List Violation) :=
  let anchor := context.anchor
  if anchor.is .assignment then
    match anchor.assignment? with
    | some shape => .ok (if splits shape then [.multiAssignment] else [])
    | none =>
      .error (.missingDetail name anchor.kind context.location.line "assignment shape")
  else .ok []

/-- Suggests one assignment a line. -/
def classifier : Classifier where
  name := name
  code := "LL003"
  description := "Suggests splitting tuple assignments into one assignment per line"
  classify := classify

end LineCoach.MultiAssignment
