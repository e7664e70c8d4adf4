import LineCoach.Classifier.Basic
import LineCoach.Config.Basic
import LineCoach.FileTree.Basic
import LineCoach.Finder.Basic
import LineCoach.Parser
import LineCoach.Text.Quoted

/-!
# Analyzers

An analyzer holds all that a scan needs: where to look, how to parse, which files and classifiers
to take, and its limits. It is made from options and a configuration; what the options say wins.
-/

namespace LineCoach

/-- Where a scan takes place: the files there are, and the working directory. -/
structure Workspace where
  files : FileTree
  /-- Absolute path of the working directory. -/
  directory : Path

namespace Workspace

/-- A path as seen from the working directory. -/
def absolute (workspace : Workspace) (path : Path) : Path :=
  workspace.directory.join path

end Workspace

/-- Why an analyzer cannot be made or does not finish. -/
inductive AnalyzerError where
  | io (failure : FileTree.Failure)
  | parse (path : Path) (error : ParseError)
  | pattern (error : Pattern.Error)
  | classify (path : Path) (error : ClassifyError)
  | noParser
deriving DecidableEq, Repr

namespace AnalyzerError

/-- The error in words. -/
def message : AnalyzerError → String
  | io failure => s!"IO error: {failure.message}"
  | parse path error => s!"Parse error in {path.text}: {error.message}"
  | pattern error => s!"Invalid glob pattern: {error.message}"
  | classify path error => s!"Classification failed in {path.text}: {error.message}"
  | noParser => "No source parser configured"

/-- What lies behind the error, in words, the nearest cause first. -/
def causes : AnalyzerError → List String
  | io failure => failure.message :: failure.causes
  | parse _ error => [error.message]
  | pattern error => [error.message]
  | classify _ error => [error.message]
  | noParser => []

end AnalyzerError

/-- All that a scan needs. -/
structure Analyzer where
  /-- Absolute path of the file or directory to analyze. -/
  root : Path
  parser : SourceParser
  /-- The classifiers in the order in which they publish. -/
  classifiers : List Classifier
  finder : Finder
  maxLineLength : Nat
  parseTimeout : Option Budget
  failOnParseError : Bool

namespace Analyzer

/-- What can be chosen for an analyzer. What is left open comes from the configuration. -/
structure Options where
  root : Option Path := none
  parser : Option SourceParser := none
  classifiers : List Classifier := []
  /-- Patterns to leave out besides those of the configuration. -/
  exclude : List String := []
  config : Config := {}
  failOnParseError : Bool := false
  maxLineLength : Option Nat := none
  /-- A limit on parsing, or none at all, instead of the configured one. -/
  parseTimeout : Option (Option Budget) := none

namespace Options

/-- The extensions to scan: the configured ones, or those of the language when there are none. -/
def extensions (options : Options) (parser : SourceParser) : List String :=
  if options.config.analyzer.extensions.isEmpty then parser.extensions
  else options.config.analyzer.extensions

/-- Whether the configuration lets a classifier run. -/
def runs (options : Options) (classifier : Classifier) : Bool :=
  options.config.isEnabled classifier.name

/-- What is logged about classifiers that do not run. -/
def disabledNotes (options : Options) : List Log.Entry :=
  (options.classifiers.filter fun classifier => !options.runs classifier).map fun classifier =>
    ⟨.debug, s!"Skipping disabled classifier: {classifier.name}"⟩

end Options

/-- Make an analyzer for a working directory, with what is logged on the way. -/
def build (directory : Path) (options : Options) :
    List Log.Entry × Except AnalyzerError Analyzer :=
  match options.parser with
  | none => ([], .error .noParser)
  | some parser =>
    let settings := options.config.analyzer
    match Finder.new (options.extensions parser) (options.exclude ++ settings.exclude) with
    | .error e => ([], .error (.pattern e))
    | .ok finder =>
      (options.disabledNotes, .ok
        { root := directory.join (options.root.getD settings.root)
          parser := parser
          classifiers := options.classifiers.filter options.runs
          finder := finder
          maxLineLength := options.maxLineLength.getD settings.maxLineLength
          parseTimeout := options.parseTimeout.getD settings.parseTimeout
          failOnParseError := options.failOnParseError })

/-- The limit on parsing in words. -/
def describeTimeout : Option Budget → String
  | some budget => s!"Some({budget.text})"
  | none => "None"

/-- The analyzer in words. -/
def describe (analyzer : Analyzer) : String :=
  let names := analyzer.classifiers.map fun classifier => Text.quote classifier.name
  let root := Text.quote analyzer.root.text
  let language := Text.quote analyzer.parser.language
  let timeout := describeTimeout analyzer.parseTimeout
  let listed := String.intercalate ", " names
  s!"CodeAnalyzer \x7b root: {root}, language: {language}, classifiers: [{listed}], "
    ++ s!"max_line_length: {analyzer.maxLineLength}, parse_timeout: {timeout}, .. \x7d"

end Analyzer

end LineCoach
