import LineCoach.Classifier.Basic
import LineCoach.Config.Basic

/-!
# Function signatures

A function whose name takes more than half of the line, and a list of parameters that does so
and has many parameters or several with long names.
-/

namespace LineCoach

/-- Limits of the rule. -/
structure FunctionSignature where
  /-- Length of a line; a name and a list of parameters may take half of it each. -/
  lineLengthLimit : Nat := defaultMaxLineLength
  /-- Parameters that a wide list may have. -/
  maxParameters : Nat := 4
  /-- Names of parameters with more characters are long. -/
  longParameterName : Nat := 25
deriving DecidableEq, Repr

namespace FunctionSignature

/-- The name of the rule. -/
def name : String := "function-signature"

/-- Number of parameters with a long name. -/
def longNames (rule : FunctionSignature) (signature : Tree.Signature) : Nat :=
  (signature.parameters.filter (fun parameter => rule.longParameterName < parameter.length)).length

/-- What is wrong with a signature: its name, then the number and the names of its parameters. -/
def found (rule : FunctionSignature) (signature : Tree.Signature) : List Violation :=
  let half := rule.lineLengthLimit / 2
  let count := signature.parameters.length
  let long := rule.longNames signature
  (if half < signature.name.length then [.longFunctionName] else [])
    ++ (if half < signature.width ∧ rule.maxParameters < count then
          [.manyFunctionArguments count] else [])
    ++ (if half < signature.width ∧ 1 < long then [.longFunctionArguments long] else [])

/-- Classify a line by its first node. -/
def classify (rule : FunctionSignature) (context : LineContext) :
    Except ClassifyError (List Violation) :=
  let anchor := context.anchor
  if anchor.is .functionDefinition then
    match anchor.signature? with
    | some signature => .ok (rule.found signature)
    | none =>
      .error (.missingDetail name anchor.kind context.location.line "function signature")
  else .ok []

/-- The rule with the limits of a configuration. The line length is that of the analysis unless
the rule has its own. -/
def ofConfig (config : Config) : FunctionSignature where
  lineLengthLimit := config.limit name "line_length_limit" config.analyzer.maxLineLength
  maxParameters := config.limit name "max_parameters" 4
  longParameterName := config.limit name "long_parameter_name" 25

/-- The limits in words. -/
def describe (rule : FunctionSignature) : String :=
  "FunctionSignatureCheck \x7b config: FunctionSignatureConfig \x7b "
    ++ s!"line_length_limit: {rule.lineLengthLimit}, max_parameters: {rule.maxParameters}, "
    ++ s!"long_parameter_name: {rule.longParameterName} \x7d \x7d"

/-- Flags long names and crowded lists of parameters. -/
def classifier (rule : FunctionSignature) : Classifier where
  name := name
  code := "LL004"
  description := "Flags long function names and crowded parameter lists"
  classify := rule.classify

end FunctionSignature

end LineCoach
