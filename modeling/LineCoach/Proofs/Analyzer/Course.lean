import LineCoach.Analyzer.Scan
import LineCoach.Proofs.Analyzer.Follows
import LineCoach.Proofs.Text.Lines
import LineCoach.Proofs.Tree.Locate

/-!
# The course of a scan

What a scan publishes is told here without a run: for a classifier on a line, for a long line and
for a file, what it has to offer, when it passes, what it counts, and what is left of it when it
fails. The run of each level then follows its plan, from the innermost loop to the outermost.

The long lines of a file are listed only once it is parsed, so that a file that is refused has
none, whatever its text.
-/

namespace LineCoach

namespace Text

/-- The text before the first long line holds no long line. -/
theorem longLines_eq_dropWhile (content : String) (limit : Nat) :
    longLines content limit =
      ((lines content).dropWhile fun line => !line.exceeds limit).filter (Line.exceeds limit) := by
  rw [longLines]
  induction lines content with
  | nil => rfl
  | cons line rest ih =>
    by_cases hlong : line.exceeds limit
    · simp [hlong]
    · simp [hlong, ih]

end Text

namespace Classifier

/-- The classifier copes with the line. -/
def Passes (context : LineContext) (classifier : Classifier) : Prop :=
  ∃ violations, classifier.classify context = .ok violations

/-- What a classifier finds on a line. One that fails finds nothing. -/
def found (context : LineContext) (classifier : Classifier) : List Violation :=
  match classifier.classify context with
  | .ok violations => violations
  | .error _ => []

/-- One event for each finding, at the place of the line. -/
def events (context : LineContext) (classifier : Classifier) : List Event :=
  (classifier.found context).map fun violation => ⟨violation, context.location⟩

/-- A classifier that fails on a line publishes nothing there. -/
inductive Fails (context : LineContext) (classifier : Classifier) :
    AnalyzerError → List Event → Prop
  | intro {error : ClassifyError} (failed : classifier.classify context = .error error) :
      Fails context classifier (.classify context.location.path error) []

end Classifier

/-- A long line of a file that was parsed. -/
structure LongLine where
  path : Path
  tree : Tree
  line : Text.Line

namespace LongLine

/-- What the classifiers look at when `anchor` is the first node of the line. -/
def contextAt (long : LongLine) (anchor : Tree.Node) : LineContext where
  location := ⟨long.path, long.line.number, long.line.text⟩
  anchor := anchor
  tree := long.tree

/-- What the classifiers look at. There is something to look at if a node starts on the line. -/
def context? (long : LongLine) : Option LineContext :=
  (long.tree.firstOn? long.line.number).map long.contextAt

/-- All classifiers cope with the line, if there is something to look at. -/
def Passes (classifiers : List Classifier) (long : LongLine) : Prop :=
  ∀ context ∈ long.context?, ∀ classifier ∈ classifiers, classifier.Passes context

/-- The events of the classifiers in turn. There are none if no node starts on the line. -/
def events (classifiers : List Classifier) (long : LongLine) : List Event :=
  match long.context? with
  | none => []
  | some context => classifiers.flatMap (Classifier.events context)

/-- What a long line adds to a summary. -/
def counts (classifiers : List Classifier) (long : LongLine) : Summary where
  linesFlagged := 1
  linesUnresolved := if long.context?.isNone then 1 else 0
  feedbackPublished := (long.events classifiers).length

/-- A line fails with the first classifier that does, after the events of those before it. -/
inductive Fails (classifiers : List Classifier) (long : LongLine) :
    AnalyzerError → List Event → Prop
  | intro {context : LineContext} {error : AnalyzerError} {part : List Event}
      (located : long.context? = some context)
      (stopped : Interrupted (Classifier.Passes context) (Classifier.events context)
        (Classifier.Fails context) classifiers error part) :
      Fails classifiers long error part

end LongLine

/-- What becomes of a file. -/
inductive Verdict where
  /-- The file cannot be read. -/
  | unreadable (failure : FileTree.Failure)
  /-- The file is not UTF-8, or it has a long line and cannot be parsed. -/
  | refused (error : ParseError)
  /-- The file is looked at, with these long lines. -/
  | examined (lines : List LongLine)

namespace Verdict

/-- The long lines that are looked at, in order. -/
def lines : Verdict → List LongLine
  | examined lines => lines
  | _ => []

/-- Whether the file is passed over. -/
def isRefused : Verdict → Bool
  | refused _ => true
  | _ => false

/-- The scan gets through the file. A scan that is `strict` does not pass over any. -/
def Passes (classifiers : List Classifier) (strict : Bool) : Verdict → Prop
  | unreadable _ => False
  | refused _ => strict = false
  | examined lines => ∀ long ∈ lines, long.Passes classifiers

end Verdict

namespace Analyzer

/-- The verdict on what was read from a file. Without a long line it is not parsed. -/
def judge (analyzer : Analyzer) (path : Path) : Except FileTree.Failure String → Verdict
  | .error .notText => .refused .encoding
  | .error failure => .unreadable failure
  | .ok content =>
    match Text.longLines content analyzer.maxLineLength with
    | [] => .examined []
    | long =>
      match analyzer.parser.run analyzer.parseTimeout content with
      | .error error => .refused error
      | .ok tree => .examined (long.map (LongLine.mk path tree))

/-- The verdict on a file. -/
def verdict (analyzer : Analyzer) (workspace : Workspace) (path : Path) : Verdict :=
  analyzer.judge (workspace.absolute path)
    (workspace.files.readText workspace.directory (workspace.absolute path))

/-- The long lines of a file, in order. A file that is not examined has none. -/
def longLines (analyzer : Analyzer) (workspace : Workspace) (path : Path) : List LongLine :=
  (analyzer.verdict workspace path).lines

/-- The scan gets through a file. -/
def Passes (analyzer : Analyzer) (workspace : Workspace) (path : Path) : Prop :=
  (analyzer.verdict workspace path).Passes analyzer.classifiers analyzer.failOnParseError

/-- The events of a file, line by line. -/
def events (analyzer : Analyzer) (workspace : Workspace) (path : Path) : List Event :=
  (analyzer.longLines workspace path).flatMap (LongLine.events analyzer.classifiers)

/-- What a file adds to a summary. -/
def counts (analyzer : Analyzer) (workspace : Workspace) (path : Path) : Summary where
  filesChecked := if (analyzer.verdict workspace path).isRefused then 0 else 1
  filesSkipped := if (analyzer.verdict workspace path).isRefused then 1 else 0
  linesFlagged := (analyzer.longLines workspace path).length
  linesUnresolved := (analyzer.longLines workspace path).countP fun long => long.context?.isNone
  feedbackPublished := (analyzer.events workspace path).length

/-- A file fails as a whole, with none of its events published, or at one of its long lines. -/
inductive Fails (analyzer : Analyzer) (workspace : Workspace) (path : Path) :
    AnalyzerError → List Event → Prop
  | unreadable {failure : FileTree.Failure}
      (judged : analyzer.verdict workspace path = .unreadable failure) :
      Fails analyzer workspace path (.io failure) []
  | refused {error : ParseError} (judged : analyzer.verdict workspace path = .refused error)
      (strict : analyzer.failOnParseError = true) :
      Fails analyzer workspace path (.parse (workspace.absolute path) error) []
  | stopped {error : AnalyzerError} {part : List Event}
      (interrupted : Interrupted (LongLine.Passes analyzer.classifiers)
        (LongLine.events analyzer.classifiers) (LongLine.Fails analyzer.classifiers)
        (analyzer.longLines workspace path) error part) :
      Fails analyzer workspace path error part

/-- Publishing findings does not fail. -/
theorem outcome_publishFound (name : String) (location : Location) (violations : List Violation) :
    (publishFound name location violations).outcome = .ok violations.length := by
  induction violations with
  | nil => rfl
  | cons violation rest ih =>
    rw [publishFound, Run.bind_of_ok _ rfl, Run.bind_of_ok _ rfl, Run.bind_of_ok _ ih]
    rfl

/-- Findings are published one by one, in order. -/
theorem seen_publishFound (name : String) (location : Location) (violations : List Violation) :
    (publishFound name location violations).seen Occurrence.event? =
      violations.map fun violation => ⟨violation, location⟩ := by
  induction violations with
  | nil => rfl
  | cons violation rest ih =>
    have hrest := outcome_publishFound name location rest
    rw [publishFound, Run.bind_of_ok _ rfl, Run.bind_of_ok _ rfl, Run.bind_of_ok _ hrest]
    simp only [Run.seen, List.filterMap_append, List.map_cons, ← ih]
    simp [Run.log, Run.publish, Occurrence.event?, pure, Run.pure]

/-- Give a line to one classifier. The result is the number of its events. -/
def offer (context : LineContext) (classifier : Classifier) : Run AnalyzerError Nat := do
  Run.logAll (classifier.notes context)
  match classifier.classify context with
  | .error e => Run.fail (.classify context.location.path e)
  | .ok violations => publishFound classifier.name context.location violations

/-- Classifiers are taken one by one. -/
theorem classifyLine_eq_each (context : LineContext) (classifiers : List Classifier) :
    classifyLine context classifiers = Run.each (offer context) (· + ·) 0 classifiers := by
  induction classifiers with
  | nil => rfl
  | cons classifier rest ih =>
    rw [classifyLine, Run.each, offer, bind_assoc, ← ih]
    cases classifier.classify context with
    | error e => rfl
    | ok violations => rfl

/-- No log entry is an event. -/
theorem seen_logAll (entries : List Log.Entry) :
    (Run.logAll entries : Run AnalyzerError Unit).seen Occurrence.event? = [] := by
  simp [Run.seen, Run.logAll, Occurrence.event?, List.filterMap_map, Function.comp_def]

/-- A classifier publishes what it finds, or fails before it publishes anything. -/
theorem follows_offer (context : LineContext) (classifier : Classifier) :
    (offer context classifier).Follows Occurrence.event? (classifier.Passes context)
      (classifier.events context) (classifier.events context).length
      (classifier.Fails context) := by
  refine Run.Follows.alike (Run.Alike.unseen rfl (seen_logAll _) _) ?_
  cases hclassify : classifier.classify context with
  | error error =>
    have hnot : ¬ classifier.Passes context := by
      rintro ⟨violations, hviolations⟩
      rw [hclassify] at hviolations
      cases hviolations
    exact Run.Follows.of_fails hnot (Classifier.Fails.intro hclassify)
  | ok violations =>
    have hevents : classifier.events context =
        violations.map fun violation => ⟨violation, context.location⟩ := by
      simp only [Classifier.events, Classifier.found, hclassify]
    rw [hevents, List.length_map]
    exact Run.Follows.of_passes ⟨violations, hclassify⟩ (outcome_publishFound _ _ _)
      (seen_publishFound _ _ _)

/-- The classifiers of a line publish in turn until one fails. -/
theorem follows_classifyLine (context : LineContext) (classifiers : List Classifier) :
    (classifyLine context classifiers).Follows Occurrence.event?
      (∀ classifier ∈ classifiers, classifier.Passes context)
      (classifiers.flatMap (Classifier.events context))
      (classifiers.flatMap (Classifier.events context)).length
      (Interrupted (Classifier.Passes context) (Classifier.events context)
        (Classifier.Fails context) classifiers) := by
  rw [classifyLine_eq_each]
  refine (Run.follows_each (· + ·) 0 (follows_offer context) classifiers).congr Iff.rfl rfl ?_
    (fun _ _ _ hpart => hpart)
  rw [List.length_flatMap]
  rfl

/-- A long line goes to the classifiers if a node starts on it. -/
def visitLong (analyzer : Analyzer) (long : LongLine) : Run AnalyzerError Summary :=
  analyzer.visitLine long.path long.tree long.line

/-- A long line publishes the events of its classifiers and counts once. -/
theorem follows_visitLong (analyzer : Analyzer) (long : LongLine) :
    (analyzer.visitLong long).Follows Occurrence.event? (long.Passes analyzer.classifiers)
      (long.events analyzer.classifiers) (long.counts analyzer.classifiers)
      (long.Fails analyzer.classifiers) := by
  rw [visitLong, visitLine, Tree.locate_eq]
  cases hfirst : long.tree.firstOn? long.line.number with
  | none =>
    have hcontext : long.context? = none := by rw [LongLine.context?, hfirst]; rfl
    have hpasses : long.Passes analyzer.classifiers := by simp [LongLine.Passes, hcontext]
    refine Run.Follows.alike (Run.Alike.unseen rfl rfl _) (Run.Follows.of_passes hpasses ?_ ?_)
    · simp [LongLine.counts, LongLine.events, hcontext, pure, Run.pure]
    · simp [LongLine.events, hcontext, Run.seen, pure, Run.pure]
  | some anchor =>
    have hcontext : long.context? = some (long.contextAt anchor) := by
      rw [LongLine.context?, hfirst]; rfl
    have hrun := (follows_classifyLine (long.contextAt anchor) analyzer.classifiers).map
      fun count => ({ linesFlagged := 1, feedbackPublished := count } : Summary)
    refine hrun.congr ?_ ?_ ?_ ?_
    · simp [LongLine.Passes, hcontext]
    · simp [LongLine.events, hcontext]
    · simp [LongLine.counts, LongLine.events, hcontext]
    · exact fun error part _ hpart => LongLine.Fails.intro hcontext hpart

/-- Of the lines that are measured only the long ones are dealt with. -/
theorem alike_visitLines (analyzer : Analyzer) (path : Path) (tree : Tree)
    (lines : List Text.Line) :
    Run.Alike Occurrence.event? (analyzer.visitLines path tree lines)
      (Run.each analyzer.visitLong Summary.merge {}
        ((lines.filter (Text.Line.exceeds analyzer.maxLineLength)).map (LongLine.mk path tree))) := by
  induction lines with
  | nil => exact Run.Alike.refl _
  | cons line rest ih =>
    rw [visitLines]
    refine (Run.Alike.unseen rfl rfl _).trans ?_
    by_cases hlong : line.exceeds analyzer.maxLineLength
    · rw [if_pos hlong, List.filter_cons_of_pos hlong]
      exact (Run.Alike.refl _).bind fun here => ih.bind fun more => Run.Alike.refl _
    · rw [if_neg hlong, List.filter_cons_of_neg hlong]
      exact ih

/-- What the long lines of a file add up to. -/
theorem foldr_counts (classifiers : List Classifier) (lines : List LongLine) :
    (lines.map (LongLine.counts classifiers)).foldr Summary.merge {} =
      { linesFlagged := lines.length
        linesUnresolved := lines.countP fun long => long.context?.isNone
        feedbackPublished := (lines.flatMap (LongLine.events classifiers)).length } := by
  induction lines with
  | nil => rfl
  | cons long rest ih =>
    rw [List.map_cons, List.foldr_cons, ih]
    simp only [Summary.merge, LongLine.counts, List.length_cons, List.countP_cons,
      List.flatMap_cons, List.length_append, Nat.add_comm]

/-- Do what a verdict on a file asks for. -/
def carryOut (analyzer : Analyzer) (path : Path) : Verdict → Run AnalyzerError Summary
  | .unreadable failure => Run.fail (.io failure)
  | .refused error => analyzer.skip path error
  | .examined lines => do
    return ({ filesChecked := 1 } : Summary).merge
      (← Run.each analyzer.visitLong Summary.merge {} lines)

/-- Scanning a file is carrying out the verdict on it. -/
theorem alike_scanFile (analyzer : Analyzer) (workspace : Workspace) (path : Path) :
    Run.Alike Occurrence.event? (analyzer.scanFile workspace path)
      (analyzer.carryOut (workspace.absolute path) (analyzer.verdict workspace path)) := by
  refine (Run.Alike.unseen rfl rfl _).trans ?_
  rw [verdict]
  cases workspace.files.readText workspace.directory (workspace.absolute path) with
  | error failure => cases failure <;> exact Run.Alike.refl _
  | ok content =>
    rw [judge, Text.longLines_eq_dropWhile]
    refine (Run.Alike.unseen rfl (seen_logAll _) _).trans ?_
    cases hdrop : (Text.lines content).dropWhile
      fun line => !line.exceeds analyzer.maxLineLength with
    | nil => exact Run.Alike.refl _
    | cons first rest =>
      have hfirst : first.exceeds analyzer.maxLineLength := by
        have hstop := List.head?_dropWhile_not
          (fun line : Text.Line => !line.exceeds analyzer.maxLineLength) (Text.lines content)
        rw [hdrop] at hstop
        simpa using hstop
      rw [List.filter_cons_of_pos hfirst]
      refine (Run.Alike.unseen rfl rfl _).trans ?_
      cases analyzer.parser.run analyzer.parseTimeout content with
      | error error => exact Run.Alike.refl _
      | ok tree =>
        refine (Run.Alike.unseen rfl (seen_logAll _) _).trans ?_
        simp only [carryOut, List.map_cons, Run.each, bind_assoc, pure_bind]
        exact (Run.Alike.refl _).bind fun here =>
          (analyzer.alike_visitLines _ tree rest).bind fun more => Run.Alike.refl _

/-- Carrying out the verdict on a file publishes its events and counts what it adds. -/
theorem follows_carryOut (analyzer : Analyzer) (workspace : Workspace) (path : Path) :
    (analyzer.carryOut (workspace.absolute path) (analyzer.verdict workspace path)).Follows
      Occurrence.event? (analyzer.Passes workspace path) (analyzer.events workspace path)
      (analyzer.counts workspace path) (analyzer.Fails workspace path) := by
  cases hverdict : analyzer.verdict workspace path with
  | unreadable failure =>
    have hnot : ¬ analyzer.Passes workspace path := by
      rw [Passes, hverdict, Verdict.Passes]
      exact not_false
    exact Run.Follows.of_fails hnot (.unreadable hverdict)
  | refused error =>
    rw [carryOut, skip]
    by_cases hstrict : analyzer.failOnParseError
    · have hnot : ¬ analyzer.Passes workspace path := by
        rw [Passes, hverdict, Verdict.Passes, hstrict]
        exact Bool.noConfusion
      rw [if_pos hstrict]
      exact Run.Follows.of_fails hnot (.refused hverdict hstrict)
    · have hpasses : analyzer.Passes workspace path := by
        rw [Passes, hverdict, Verdict.Passes]
        exact eq_false_of_ne_true hstrict
      have hlines : analyzer.longLines workspace path = [] := by
        rw [longLines, hverdict]
        rfl
      rw [if_neg hstrict]
      refine Run.Follows.alike (Run.Alike.unseen rfl rfl _) (Run.Follows.of_passes hpasses ?_ ?_)
      · rw [counts, events, hlines, hverdict]
        rfl
      · rw [events, hlines]
        rfl
  | examined lines =>
    have hlines : analyzer.longLines workspace path = lines := by
      rw [longLines, hverdict, Verdict.lines]
    have hrun := (Run.follows_each Summary.merge {} analyzer.follows_visitLong lines).map
      fun more => ({ filesChecked := 1 } : Summary).merge more
    refine hrun.congr ?_ ?_ ?_ ?_
    · rw [Passes, hverdict, Verdict.Passes]
    · rw [events, hlines]
    · rw [foldr_counts, counts, events, hlines, hverdict]
      simp [Verdict.isRefused, Summary.merge]
    · intro error part _ hpart
      rw [← hlines] at hpart
      exact .stopped hpart

/-- Files are taken one by one. -/
theorem scanFiles_eq_each (analyzer : Analyzer) (workspace : Workspace) (files : List Path) :
    analyzer.scanFiles workspace files =
      Run.each (analyzer.scanFile workspace) Summary.merge {} files := by
  induction files with
  | nil => rfl
  | cons path rest ih => rw [scanFiles, Run.each, ih]

/-- A file publishes its events and counts what it adds. -/
theorem follows_scanFile (analyzer : Analyzer) (workspace : Workspace) (path : Path) :
    (analyzer.scanFile workspace path).Follows Occurrence.event? (analyzer.Passes workspace path)
      (analyzer.events workspace path) (analyzer.counts workspace path)
      (analyzer.Fails workspace path) :=
  (analyzer.follows_carryOut workspace path).alike (analyzer.alike_scanFile workspace path)

/-- The files publish in turn until one fails. -/
theorem follows_scanFiles (analyzer : Analyzer) (workspace : Workspace) (files : List Path) :
    (analyzer.scanFiles workspace files).Follows Occurrence.event?
      (∀ path ∈ files, analyzer.Passes workspace path)
      (files.flatMap (analyzer.events workspace))
      ((files.map (analyzer.counts workspace)).foldr Summary.merge {})
      (Interrupted (analyzer.Passes workspace) (analyzer.events workspace)
        (analyzer.Fails workspace) files) := by
  rw [scanFiles_eq_each]
  exact Run.follows_each Summary.merge {} (analyzer.follows_scanFile workspace) files

/-- The files of a scan of `start`. -/
def discovered (analyzer : Analyzer) (workspace : Workspace) (start : Path) :
    Except FileTree.Failure (List Path) :=
  (analyzer.finder.discover workspace.files workspace.directory (workspace.absolute start)).2

/-- A scan of a directory is the scan of the files found there, if they can be listed. -/
theorem alike_scanDirectory (analyzer : Analyzer) (workspace : Workspace) (start : Path) :
    Run.Alike Occurrence.event? (analyzer.scanDirectory workspace start)
      (match analyzer.discovered workspace start with
        | .error failure => Run.fail (.io failure)
        | .ok files => analyzer.scanFiles workspace files) := by
  rw [scanDirectory, discovered]
  generalize analyzer.finder.discover workspace.files workspace.directory
    (workspace.absolute start) = found
  obtain ⟨notes, found⟩ := found
  refine (Run.Alike.unseen rfl rfl _).trans ((Run.Alike.unseen rfl (seen_logAll _) _).trans ?_)
  cases found with
  | error failure => exact Run.Alike.refl _
  | ok files =>
    have hreturn : Run.Alike Occurrence.event? (analyzer.scanFiles workspace files >>= pure)
        (analyzer.scanFiles workspace files) := by
      rw [bind_pure]
      exact Run.Alike.refl _
    refine Run.Alike.trans ((Run.Alike.refl _).bind fun summary => ?_) hreturn
    exact Run.Alike.unseen rfl rfl _

end Analyzer

end LineCoach
