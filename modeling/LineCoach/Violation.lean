/-!
# Violations

The reasons why a line is long. Each has a stable code and a text of guidance.
-/

namespace LineCoach

/-- A reason why a line is long. -/
inductive Violation where
  /-- The whole line is a comment. -/
  | comment
  /-- A comment trails code. -/
  | commentAfterStatement
  /-- Too many operands are combined in one expression. -/
  | extractVariable
  /-- Several names are bound to as many values at once. -/
  | multiAssignment
  /-- A function has a very long name. -/
  | longFunctionName
  /-- A function takes this many parameters. -/
  | manyFunctionArguments (count : Nat)
  /-- This many parameters of a function have a long name. -/
  | longFunctionArguments (count : Nat)
deriving DecidableEq, Repr

namespace Violation

/-- The stable code of the kind of violation. -/
def code : Violation → String
  | comment => "comment"
  | commentAfterStatement => "comment_after_statement"
  | extractVariable => "extract_variable"
  | multiAssignment => "multi_assignment"
  | longFunctionName => "fundef_long_name"
  | manyFunctionArguments _ => "fundef_many_arguments"
  | longFunctionArguments _ => "fundef_long_arguments"

/-- The number that a violation carries, when it counts something. -/
def count? : Violation → Option Nat
  | manyFunctionArguments count => some count
  | longFunctionArguments count => some count
  | _ => none

/-- The violation with this code, and this number when its kind counts something. -/
def ofCode? (code : String) (count : Nat) : Option Violation :=
  [comment, commentAfterStatement, extractVariable, multiAssignment, longFunctionName,
    manyFunctionArguments count, longFunctionArguments count].find? (·.code = code)

/-- The name of the kind in structured output. -/
def tag : Violation → String
  | comment => "comment"
  | commentAfterStatement => "comment_after_statement"
  | extractVariable => "extract_variable"
  | multiAssignment => "multi_assignment"
  | longFunctionName => "long_function_name"
  | manyFunctionArguments _ => "many_function_arguments"
  | longFunctionArguments _ => "long_function_arguments"

/-- The advice given to the author of the line. -/
def guidance : Violation → String
  | comment =>
    "Try splitting your comment into multiple lines so that it doesn't exceed the line length "
      ++ "limit."
  | commentAfterStatement =>
    "Try placing your comment above the relevant line to prevent exceeding the line length limit."
  | extractVariable =>
    "This line contains a lot of expressions. Storing the results in a variable with a "
      ++ "descriptive name will increase the readability."
  | multiAssignment =>
    "This line contains multiple assignments that can be split up into their own lines to "
      ++ "reduce the line length."
  | longFunctionName =>
    "This function has a very long name, which can probably be shortened without losing any "
      ++ "expressiveness."
  | manyFunctionArguments count =>
    s!"This function has {count} arguments. Try splitting this function up into multiple "
      ++ "functions with less arguments"
  | longFunctionArguments count =>
    s!"This function has {count} arguments with a long name. These can probably be shortened "
      ++ "without losing any expressiveness."

end Violation

end LineCoach
