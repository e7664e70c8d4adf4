import LineCoach.Analyzer.Basic
import LineCoach.Analyzer.Run
import LineCoach.Finder.Discover
import LineCoach.Text.Lines

/-!
# Scans

A scan goes through files one by one. A file without a long line is done at once. Otherwise it is
parsed, and every long line on which a node starts goes to the classifiers, whose findings are
published. A file that cannot be parsed and a line that cannot be resolved are passed over with a
warning; a classifier that fails ends the scan.
-/

namespace LineCoach

/-- What a scan looked at. -/
structure Summary where
  /-- Files read and, where needed, parsed. -/
  filesChecked : Nat := 0
  /-- Files passed over because they could not be parsed. -/
  filesSkipped : Nat := 0
  /-- Lines longer than the limit. -/
  linesFlagged : Nat := 0
  /-- Long lines on which no node starts. -/
  linesUnresolved : Nat := 0
  /-- Events published. -/
  feedbackPublished : Nat := 0
deriving DecidableEq, Repr

namespace Summary

/-- The counts of two scans together. -/
def merge (a b : Summary) : Summary where
  filesChecked := a.filesChecked + b.filesChecked
  filesSkipped := a.filesSkipped + b.filesSkipped
  linesFlagged := a.linesFlagged + b.linesFlagged
  linesUnresolved := a.linesUnresolved + b.linesUnresolved
  feedbackPublished := a.feedbackPublished + b.feedbackPublished

end Summary

namespace Analyzer

/-- What is logged when a line is measured: whether it is short enough. -/
def measured (limit : Nat) (line : Text.Line) : Log.Entry :=
  ⟨.trace, if line.exceeds limit then s!"✗ {line.number}" else s!"✓ {line.number}"⟩

/-- Publish the findings of one classifier on a line. The result is their number. -/
def publishFound (classifier : String) (location : Location) :
    List Violation → Run AnalyzerError Nat
  | [] => return 0
  | violation :: rest => do
    Run.log ⟨.debug,
      s!"{location.path.text}:{location.line} {classifier} -> {violation.code}"⟩
    Run.publish ⟨violation, location⟩
    let count ← publishFound classifier location rest
    return count + 1

/-- Give a line to classifiers in turn. The result is the number of events. -/
def classifyLine (context : LineContext) : List Classifier → Run AnalyzerError Nat
  | [] => return 0
  | classifier :: rest => do
    Run.logAll (classifier.notes context)
    match classifier.classify context with
    | .error e => Run.fail (.classify context.location.path e)
    | .ok violations =>
      let count ← publishFound classifier.name context.location violations
      let more ← classifyLine context rest
      return count + more

/-- Deal with a long line. -/
def visitLine (analyzer : Analyzer) (path : Path) (tree : Tree) (line : Text.Line) :
    Run AnalyzerError Summary :=
  match tree.locate line.number with
  | .error reason => do
    Run.log ⟨.warn, s!"Skipping {path.text}:{line.number}: {reason.message}"⟩
    return { linesFlagged := 1, linesUnresolved := 1 }
  | .ok anchor => do
    let location : Location := ⟨path, line.number, line.text⟩
    let count ← classifyLine ⟨location, anchor, tree⟩ analyzer.classifiers
    return { linesFlagged := 1, feedbackPublished := count }

/-- Measure lines one after the other and deal with the long ones. -/
def visitLines (analyzer : Analyzer) (path : Path) (tree : Tree) :
    List Text.Line → Run AnalyzerError Summary
  | [] => return {}
  | line :: rest => do
    Run.log (measured analyzer.maxLineLength line)
    if line.exceeds analyzer.maxLineLength then
      let here ← analyzer.visitLine path tree line
      let more ← analyzer.visitLines path tree rest
      return here.merge more
    else analyzer.visitLines path tree rest

/-- Pass over a file that cannot be parsed, unless that is an error. -/
def skip (analyzer : Analyzer) (path : Path) (error : ParseError) : Run AnalyzerError Summary :=
  if analyzer.failOnParseError then Run.fail (.parse path error)
  else do
    Run.log ⟨.warn, s!"Failed to parse {path.text}: {error.message}"⟩
    return { filesSkipped := 1 }

/-- Scan the content of a file. Its first long line is measured before it is parsed. -/
def scanContent (analyzer : Analyzer) (path : Path) (content : String) :
    Run AnalyzerError Summary := do
  let limit := analyzer.maxLineLength
  let lines := Text.lines content
  Run.logAll ((lines.takeWhile fun line => !line.exceeds limit).map (measured limit))
  match lines.dropWhile fun line => !line.exceeds limit with
  | [] => return { filesChecked := 1 }
  | first :: rest =>
    Run.log (measured limit first)
    match analyzer.parser.run analyzer.parseTimeout content with
    | .error e => analyzer.skip path e
    | .ok tree =>
      Run.logAll (analyzer.parser.notes tree)
      let here ← analyzer.visitLine path tree first
      let more ← analyzer.visitLines path tree rest
      return ({ filesChecked := 1 } : Summary).merge (here.merge more)

/-- Scan one file. -/
def scanFile (analyzer : Analyzer) (workspace : Workspace) (path : Path) :
    Run AnalyzerError Summary := do
  let path := workspace.absolute path
  Run.log ⟨.debug, s!"Analyzing: {path.text}"⟩
  match workspace.files.readText workspace.directory path with
  | .ok content => analyzer.scanContent path content
  | .error .notText => analyzer.skip path .encoding
  | .error failure => Run.fail (.io failure)

/-- Scan files one after the other. -/
def scanFiles (analyzer : Analyzer) (workspace : Workspace) :
    List Path → Run AnalyzerError Summary
  | [] => return {}
  | path :: rest => do
    let here ← analyzer.scanFile workspace path
    let more ← analyzer.scanFiles workspace rest
    return here.merge more

/-- Scan the files below a directory that belong to the scan. -/
def scanDirectory (analyzer : Analyzer) (workspace : Workspace) (start : Path) :
    Run AnalyzerError Summary := do
  let start := workspace.absolute start
  Run.log ⟨.info, s!"Starting analysis at {start.text}"⟩
  let (notes, found) := analyzer.finder.discover workspace.files workspace.directory start
  Run.logAll notes
  match found with
  | .error failure => Run.fail (.io failure)
  | .ok files =>
    let summary ← analyzer.scanFiles workspace files
    Run.log ⟨.info,
      s!"Analysis complete: {summary.feedbackPublished} feedback in {summary.filesChecked} files "
        ++ s!"({summary.filesSkipped} skipped)"⟩
    return summary

/-- Scan what the analyzer was made for, a file or a directory. -/
def scan (analyzer : Analyzer) (workspace : Workspace) : Run AnalyzerError Summary :=
  if workspace.files.isFile workspace.directory analyzer.root then
    analyzer.scanFile workspace analyzer.root
  else analyzer.scanDirectory workspace analyzer.root

end Analyzer

end LineCoach
