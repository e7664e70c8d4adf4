import LineCoach.Classifier.Basic

/-!
# Long comments

A line that is nothing but a comment, and a line that ends in one.
-/

namespace LineCoach.LongComment

/-- What the nodes on a line say about comments. -/
def found : List Tree.Node → List Violation
  | [] => []
  | [only] => if only.is .comment then [.comment] else []
  | first :: second :: more =>
    if ((second :: more).getLast?.getD first).is .comment then [.commentAfterStatement] else []

/-- Flags comments on long lines. -/
def classifier : Classifier where
  name := "long-comment"
  code := "LL001"
  description := "Suggests splitting long comments or moving trailing comments above the code"
  classify context := .ok (found context.sameLineNodes)

end LineCoach.LongComment
