import LineCoach.Proofs.Analyzer.BuiltIn

/-!
# What a scan warns of

A scan that ends well warns of what it passed over: once of each file that it could not parse, and
once of each long line on which no node starts. These are also what its summary counts. A parser and
classifiers may write to the same log, so what a file leaves there is told as a list of remarks,
each of which is either about something passed over or a note that is not the scan's own.

Only runs that end well are looked at, so a loop is known by what each of its items leaves, whatever
else may happen.
-/

namespace LineCoach

/-- Whether the entry is a warning. -/
def Log.Entry.isWarning (entry : Log.Entry) : Bool :=
  entry.level = .warn

/-- The log entry, when it is a warning. -/
def Occurrence.warning? (occurrence : Occurrence) : Option Log.Entry :=
  occurrence.entry?.filter Log.Entry.isWarning

/-- Something that a scan passes over. -/
inductive Skip where
  /-- A file that is not UTF-8, or that has a long line and cannot be parsed. -/
  | file (path : Path) (error : ParseError)
  /-- A long line on which no node starts. -/
  | line (path : Path) (number : Nat)
deriving DecidableEq, Repr

namespace Skip

/-- What a scan writes about what it passes over. -/
def warning : Skip → Log.Entry
  | file path error => ⟨.warn, s!"Failed to parse {path.text}: {error.message}"⟩
  | line path number =>
    ⟨.warn, s!"Skipping {path.text}:{number}: {(Tree.UnresolvedLine.mk number).message}"⟩

/-- Whether it is a whole file that is passed over. -/
def isFile : Skip → Bool
  | file .. => true
  | line .. => false

end Skip

/-- Something that is written to the log while files are dealt with. -/
inductive Remark where
  /-- The scan passes over something. -/
  | skipped (skip : Skip)
  /-- The parser or a classifier notes something. -/
  | noted (entry : Log.Entry)
deriving DecidableEq, Repr

namespace Remark

/-- The entry that is written. -/
def entry : Remark → Log.Entry
  | skipped skip => skip.warning
  | noted entry => entry

/-- What is passed over, when the remark is about that. -/
def skip? : Remark → Option Skip
  | skipped skip => some skip
  | noted _ => none

/-- The warnings among remarks. -/
def warnings (remarks : List Remark) : List Log.Entry :=
  (remarks.map entry).filter Log.Entry.isWarning

theorem warnings_append (first second : List Remark) :
    warnings (first ++ second) = warnings first ++ warnings second := by
  rw [warnings, List.map_append, List.filter_append]
  rfl

/-- The warnings among notes. -/
theorem warnings_noted (entries : List Log.Entry) :
    warnings (entries.map noted) = entries.filter Log.Entry.isWarning := by
  rw [warnings, List.map_map]
  exact congrArg _ (List.map_id entries)

/-- If no note is a warning, the warnings are about what is passed over. -/
theorem warnings_of_quiet {remarks : List Remark}
    (h : ∀ entry, noted entry ∈ remarks → entry.isWarning = false) :
    warnings remarks = (remarks.filterMap skip?).map Skip.warning := by
  induction remarks with
  | nil => rfl
  | cons remark rest ih =>
    have hrest := ih fun entry hentry => h entry (List.mem_cons_of_mem _ hentry)
    rw [warnings] at hrest
    cases remark with
    | skipped skip =>
      have hwarning : skip.warning.isWarning = true := by cases skip <;> rfl
      simp [warnings, entry, skip?, hwarning, hrest]
    | noted note =>
      have hnote := h note List.mem_cons_self
      rw [List.filterMap_cons_none rfl]
      simp [warnings, entry, hnote, hrest]

end Remark

namespace Run

variable {ω ε α β : Type} {observe : Occurrence → Option ω} {run : Run ε α} {record : List ω}

/-- The warnings, in order. -/
def warnings (run : Run ε α) : List Log.Entry :=
  run.entries.filter Log.Entry.isWarning

/-- The warnings are what an observer of warnings sees. -/
theorem warnings_eq_seen (run : Run ε α) : run.warnings = run.seen Occurrence.warning? := by
  rw [warnings, entries, List.filter_filterMap]
  rfl

/-- The observer has seen `record` if the run ends well. -/
def Leaves (observe : Occurrence → Option ω) (run : Run ε α) (record : List ω) : Prop :=
  ∀ a, run.outcome = .ok a → run.seen observe = record

/-- Nothing is seen of a run in which nothing happens. -/
theorem leaves_pure (a : α) : (pure a : Run ε α).Leaves observe [] := fun _ _ => rfl

/-- A run that fails may have left anything. -/
theorem leaves_fail (error : ε) (record : List ω) :
    (fail error : Run ε α).Leaves observe record := nofun

/-- Two runs one after the other leave what they leave, one behind the other. -/
theorem Leaves.bind {next : α → Run ε β} {record' : List ω} (h : run.Leaves observe record)
    (hnext : ∀ a, (next a).Leaves observe record') :
    (run >>= next).Leaves observe (record ++ record') := by
  intro b hok
  cases houtcome : run.outcome with
  | error error =>
    rw [bind_of_error _ houtcome] at hok
    cases hok
  | ok a =>
    rw [bind_of_ok _ houtcome] at hok ⊢
    rw [← h a houtcome, ← hnext a b hok]
    exact List.filterMap_append

/-- The result may be worked on at the end. -/
theorem Leaves.map (f : α → β) (h : run.Leaves observe record) :
    (do return f (← run)).Leaves observe record := by
  rw [← List.append_nil record]
  exact h.bind fun a => leaves_pure (f a)

/-- Of entries that are written the warnings are seen. -/
theorem leaves_logAll (entries : List Log.Entry) :
    (logAll entries : Run ε Unit).Leaves Occurrence.warning?
      (entries.filter Log.Entry.isWarning) := by
  intro _ _
  rw [← warnings_eq_seen, warnings, Run.entries, logAll, List.filterMap_map]
  exact congrArg _ List.filterMap_some

/-- Entries that are no warnings leave nothing. -/
theorem Leaves.after_logAll {entries : List Log.Entry} {record : List Log.Entry}
    (hentries : ∀ entry ∈ entries, entry.isWarning = false)
    (h : run.Leaves Occurrence.warning? record) :
    (logAll entries >>= fun _ => run).Leaves Occurrence.warning? record := by
  have hlogged : (logAll entries >>= fun _ => run).Leaves Occurrence.warning?
      (entries.filter Log.Entry.isWarning ++ record) := (leaves_logAll entries).bind fun _ => h
  rwa [List.filter_eq_nil_iff.2 (by simpa using hentries), List.nil_append] at hlogged

/-- An entry that is no warning leaves nothing. -/
theorem Leaves.after_log {entry : Log.Entry} {record : List Log.Entry}
    (hentry : entry.isWarning = false) (h : run.Leaves Occurrence.warning? record) :
    (log entry >>= fun _ => run).Leaves Occurrence.warning? record :=
  h.after_logAll (List.forall_mem_singleton.2 hentry)

end Run

/-- What is written about a long line: that it is passed over, or what the classifiers note. -/
def LongLine.remarks (classifiers : List Classifier) (long : LongLine) : List Remark :=
  match long.context? with
  | none => [.skipped (.line long.path long.line.number)]
  | some context => classifiers.flatMap fun classifier => (classifier.notes context).map .noted

/-- A long line that is passed over. -/
def LongLine.skip? (long : LongLine) : Option Skip :=
  if long.context?.isNone then some (.line long.path long.line.number) else none

/-- What is written about a file: that it is passed over, or what the parser notes about its tree
and what is written about its long lines, in order. -/
def Verdict.remarks (analyzer : Analyzer) (path : Path) : Verdict → List Remark
  | unreadable _ => []
  | refused error => [.skipped (.file path error)]
  | examined lines =>
    lines.head?.toList.flatMap (fun long => (analyzer.parser.notes long.tree).map .noted) ++
      lines.flatMap (LongLine.remarks analyzer.classifiers)

/-- What is passed over of a file, in order: the file itself, or some of its long lines. -/
def Verdict.skips (path : Path) : Verdict → List Skip
  | unreadable _ => []
  | refused error => [.file path error]
  | examined lines => lines.filterMap LongLine.skip?

namespace Analyzer

/-- What is written about a file, in order. -/
def remarks (analyzer : Analyzer) (workspace : Workspace) (path : Path) : List Remark :=
  (analyzer.verdict workspace path).remarks analyzer (workspace.absolute path)

/-- What is passed over of a file, in order. -/
def skips (analyzer : Analyzer) (workspace : Workspace) (path : Path) : List Skip :=
  (analyzer.verdict workspace path).skips (workspace.absolute path)

section Levels

variable (analyzer : Analyzer) (workspace : Workspace) (path : Path)

/-- There is no warning about findings. -/
theorem leaves_publishFound (name : String) (location : Location) (violations : List Violation) :
    (publishFound name location violations).Leaves Occurrence.warning? [] := by
  induction violations with
  | nil => exact Run.leaves_pure _
  | cons violation rest ih =>
    have hpublish : (Run.publish ⟨violation, location⟩ : Run AnalyzerError Unit).Leaves
        Occurrence.warning? [] := fun _ _ => rfl
    exact Run.Leaves.after_log rfl (hpublish.bind fun _ => ih.map (· + 1))

/-- The classifiers of a line leave what they note, in turn. -/
theorem leaves_classifyLine (context : LineContext) (classifiers : List Classifier) :
    (classifyLine context classifiers).Leaves Occurrence.warning?
      (Remark.warnings
        (classifiers.flatMap fun classifier => (classifier.notes context).map .noted)) := by
  induction classifiers with
  | nil => exact Run.leaves_pure _
  | cons classifier rest ih =>
    rw [classifyLine, List.flatMap_cons, Remark.warnings_append, Remark.warnings_noted]
    refine (Run.leaves_logAll _).bind fun _ => ?_
    cases classifier.classify context with
    | error error => exact Run.leaves_fail _ _
    | ok violations =>
      exact (leaves_publishFound _ _ violations).bind fun count => ih.map (count + ·)

/-- A long line leaves the warnings about it. -/
theorem leaves_visitLine (tree : Tree) (line : Text.Line) :
    (analyzer.visitLine path tree line).Leaves Occurrence.warning?
      (Remark.warnings (LongLine.remarks analyzer.classifiers ⟨path, tree, line⟩)) := by
  rw [visitLine, Tree.locate_eq, LongLine.remarks, LongLine.context?]
  cases tree.firstOn? line.number with
  | none => exact (Run.leaves_logAll [_]).bind fun _ => Run.leaves_pure _
  | some anchor =>
    exact (leaves_classifyLine _ analyzer.classifiers).map
      fun count => ({ linesFlagged := 1, feedbackPublished := count } : Summary)

/-- Of the lines that are measured only the long ones leave anything. -/
theorem leaves_visitLines (tree : Tree) (lines : List Text.Line) :
    (analyzer.visitLines path tree lines).Leaves Occurrence.warning?
      (Remark.warnings (((lines.filter (Text.Line.exceeds analyzer.maxLineLength)).map
        (LongLine.mk path tree)).flatMap (LongLine.remarks analyzer.classifiers))) := by
  induction lines with
  | nil => exact Run.leaves_pure _
  | cons line rest ih =>
    rw [visitLines]
    refine Run.Leaves.after_log rfl ?_
    by_cases hlong : line.exceeds analyzer.maxLineLength
    · rw [if_pos hlong, List.filter_cons_of_pos hlong, List.map_cons, List.flatMap_cons,
        Remark.warnings_append]
      exact (analyzer.leaves_visitLine path tree line).bind fun here => ih.map here.merge
    · rw [if_neg hlong, List.filter_cons_of_neg hlong]
      exact ih

/-- Passing over a file leaves one warning. -/
theorem leaves_skip (error : ParseError) :
    (analyzer.skip path error).Leaves Occurrence.warning?
      (Remark.warnings [.skipped (.file path error)]) := by
  rw [skip]
  split
  · exact Run.leaves_fail _ _
  · exact (Run.leaves_logAll [_]).bind fun _ => Run.leaves_pure _

/-- The content of a file leaves the warnings that the verdict on it brings. -/
theorem leaves_scanContent (content : String) :
    (analyzer.scanContent path content).Leaves Occurrence.warning?
      (Remark.warnings ((analyzer.judge path (.ok content)).remarks analyzer path)) := by
  rw [scanContent, judge, Text.longLines_eq_dropWhile]
  refine Run.Leaves.after_logAll ?_ ?_
  · intro entry hentry
    obtain ⟨line, -, rfl⟩ := List.mem_map.1 hentry
    rfl
  · cases hdrop : (Text.lines content).dropWhile
      fun line => !line.exceeds analyzer.maxLineLength with
    | nil => exact Run.leaves_pure _
    | cons first rest =>
      have hfirst : first.exceeds analyzer.maxLineLength := by
        have hstop := List.head?_dropWhile_not
          (fun line : Text.Line => !line.exceeds analyzer.maxLineLength) (Text.lines content)
        rw [hdrop] at hstop
        simpa using hstop
      rw [List.filter_cons_of_pos hfirst]
      refine Run.Leaves.after_log rfl ?_
      cases analyzer.parser.run analyzer.parseTimeout content with
      | error error => exact analyzer.leaves_skip path error
      | ok tree =>
        have hremarks (lines : List Text.Line) :
            (Verdict.examined ((first :: lines).map (LongLine.mk path tree))).remarks analyzer
              path = (analyzer.parser.notes tree).map .noted ++
                (LongLine.remarks analyzer.classifiers ⟨path, tree, first⟩ ++
                  (lines.map (LongLine.mk path tree)).flatMap
                    (LongLine.remarks analyzer.classifiers)) := by
          simp [Verdict.remarks]
        rw [hremarks, Remark.warnings_append, Remark.warnings_append, Remark.warnings_noted]
        exact (Run.leaves_logAll _).bind fun _ =>
          (analyzer.leaves_visitLine path tree first).bind fun here =>
            (analyzer.leaves_visitLines path tree rest).map fun more =>
              ({ filesChecked := 1 } : Summary).merge (here.merge more)

/-- A file leaves the warnings about it. -/
theorem leaves_scanFile :
    (analyzer.scanFile workspace path).Leaves Occurrence.warning?
      (Remark.warnings (analyzer.remarks workspace path)) := by
  rw [scanFile, remarks, verdict]
  refine Run.Leaves.after_log rfl ?_
  cases workspace.files.readText workspace.directory (workspace.absolute path) with
  | ok content => exact analyzer.leaves_scanContent _ content
  | error failure =>
    cases failure with
    | notText => exact analyzer.leaves_skip _ .encoding
    | _ => exact Run.leaves_fail _ _

/-- Files leave the warnings about them, one file after the other. -/
theorem leaves_scanFiles (files : List Path) :
    (analyzer.scanFiles workspace files).Leaves Occurrence.warning?
      (Remark.warnings (files.flatMap (analyzer.remarks workspace))) := by
  induction files with
  | nil => exact Run.leaves_pure _
  | cons path rest ih =>
    rw [scanFiles, List.flatMap_cons, Remark.warnings_append]
    exact (analyzer.leaves_scanFile workspace path).bind fun here => ih.map here.merge

/-- There is no warning about a selection of files. -/
theorem not_isWarning_of_mem_notes (finder : Finder) (files : List Path) {entry : Log.Entry}
    (h : entry ∈ finder.notes files) : entry.isWarning = false := by
  rw [Finder.notes, List.mem_append, List.mem_map, List.mem_singleton] at h
  rcases h with ⟨excluded, -, rfl⟩ | rfl
  · rfl
  · rfl

/-- A directory leaves the warnings about the files that are found there. -/
theorem leaves_scanDirectory {start : Path} {files : List Path}
    (h : analyzer.discovered workspace start = .ok files) :
    (analyzer.scanDirectory workspace start).Leaves Occurrence.warning?
      (Remark.warnings (files.flatMap (analyzer.remarks workspace))) := by
  rw [discovered, Finder.discover] at h
  rw [scanDirectory, Finder.discover]
  refine Run.Leaves.after_log rfl ?_
  cases hlisted : workspace.files.files workspace.directory (workspace.absolute start) with
  | error failure =>
    rw [hlisted] at h
    cases h
  | ok listed =>
    rw [hlisted] at h
    cases h
    refine Run.Leaves.after_logAll (fun _ => not_isWarning_of_mem_notes _ _) ?_
    rw [← List.append_nil (Remark.warnings _)]
    refine (analyzer.leaves_scanFiles workspace _).bind fun summary => ?_
    exact Run.Leaves.after_log rfl (Run.leaves_pure summary)

end Levels

end Analyzer

/-- Of what is written about a long line only that it is passed over is the scan's own. -/
theorem LongLine.filterMap_skip?_remarks (classifiers : List Classifier) (long : LongLine) :
    (long.remarks classifiers).filterMap Remark.skip? = long.skip?.toList := by
  rw [remarks, skip?]
  cases long.context? with
  | none => rfl
  | some context => simp [List.filterMap_flatMap, Remark.skip?]

namespace Verdict

/-- Of what is written about a file only what is passed over is the scan's own. -/
theorem filterMap_skip?_remarks (analyzer : Analyzer) (path : Path) (verdict : Verdict) :
    (verdict.remarks analyzer path).filterMap Remark.skip? = verdict.skips path := by
  cases verdict with
  | unreadable failure => rfl
  | refused error => rfl
  | examined lines =>
    have hnoted : (lines.head?.toList.flatMap fun long =>
        (analyzer.parser.notes long.tree).map Remark.noted).filterMap Remark.skip? = [] := by
      simp [List.filterMap_flatMap, Remark.skip?]
    rw [remarks, skips, List.filterMap_append, hnoted, List.nil_append, List.filterMap_flatMap]
    simp only [LongLine.filterMap_skip?_remarks]
    exact (List.filterMap_eq_flatMap_toList _ _).symm

/-- A file is passed over as a whole when it is refused. -/
theorem countP_isFile_skips (path : Path) (verdict : Verdict) :
    (verdict.skips path).countP Skip.isFile = if verdict.isRefused then 1 else 0 := by
  cases verdict with
  | unreadable failure => rfl
  | refused error => rfl
  | examined lines =>
    have hnone : ∀ skip ∈ lines.filterMap LongLine.skip?, ¬ skip.isFile = true := by
      intro skip hskip
      obtain ⟨long, -, hlong⟩ := List.mem_filterMap.1 hskip
      rw [LongLine.skip?, Option.ite_none_right_eq_some, Option.some.injEq] at hlong
      rw [← hlong.2]
      exact Bool.false_ne_true
    rw [skips, List.countP_eq_zero.2 hnone]
    rfl

/-- The lines of a file that are passed over are the long ones on which no node starts. -/
theorem countP_not_isFile_skips (path : Path) (verdict : Verdict) :
    (verdict.skips path).countP (fun skip => !skip.isFile) =
      verdict.lines.countP fun long => long.context?.isNone := by
  cases verdict with
  | unreadable failure => rfl
  | refused error => rfl
  | examined lines =>
    rw [skips, List.countP_filterMap]
    apply List.countP_congr
    intro long _
    cases hcontext : long.context? <;> simp [LongLine.skip?, hcontext, Skip.isFile]

end Verdict

namespace Analyzer

/-- Neither the parser nor a classifier warns of anything. -/
structure Quiet (analyzer : Analyzer) : Prop where
  parser : ∀ tree, ∀ entry ∈ analyzer.parser.notes tree, entry.isWarning = false
  classifiers : ∀ classifier ∈ analyzer.classifiers, ∀ context,
    ∀ entry ∈ classifier.notes context, entry.isWarning = false

/-- The parser of a grammar and the classifiers that come with the program do not warn. -/
theorem quiet_of_builtIn {analyzer : Analyzer} {grammar : Concrete.Grammar}
    (hparser : analyzer.parser = grammar.parser)
    (hbuiltIn : ∀ classifier ∈ analyzer.classifiers, classifier.IsBuiltIn) : analyzer.Quiet where
  parser tree entry hentry := by
    rw [hparser] at hentry
    obtain rfl := List.mem_singleton.1 hentry
    rfl
  classifiers classifier hclassifier context entry hentry := by
    cases hbuiltIn classifier hclassifier with
    | longComment => cases hentry
    | extractVariable rule =>
      obtain rfl := List.mem_singleton.1 hentry
      rfl
    | multiAssignment => cases hentry
    | functionSignature rule => cases hentry

/-- Where the parser and the classifiers do not warn, no note about a file is a warning. -/
theorem Quiet.isWarning_of_noted {analyzer : Analyzer} (h : analyzer.Quiet) {workspace : Workspace}
    {path : Path} {entry : Log.Entry} (hentry : .noted entry ∈ analyzer.remarks workspace path) :
    entry.isWarning = false := by
  rw [remarks] at hentry
  cases hverdict : analyzer.verdict workspace path with
  | unreadable failure => simp [hverdict, Verdict.remarks] at hentry
  | refused error => simp [hverdict, Verdict.remarks] at hentry
  | examined lines =>
    rw [hverdict, Verdict.remarks, List.mem_append, List.mem_flatMap, List.mem_flatMap] at hentry
    rcases hentry with ⟨long, -, hnoted⟩ | ⟨long, -, hnoted⟩
    · obtain ⟨note, hnote, heq⟩ := List.mem_map.1 hnoted
      cases heq
      exact h.parser long.tree entry hnote
    · rw [LongLine.remarks] at hnoted
      cases hcontext : long.context? with
      | none => simp [hcontext] at hnoted
      | some context =>
        rw [hcontext, List.mem_flatMap] at hnoted
        obtain ⟨classifier, hclassifier, hnoted⟩ := hnoted
        obtain ⟨note, hnote, heq⟩ := List.mem_map.1 hnoted
        cases heq
        exact h.classifiers classifier hclassifier context entry hnote

/-- A file without a long line is not parsed, and nothing is written about it. -/
theorem remarks_of_short {analyzer : Analyzer} {workspace : Workspace} {path : Path}
    {content : String}
    (hread : workspace.files.readText workspace.directory (workspace.absolute path) = .ok content)
    (hshort : Text.longLines content analyzer.maxLineLength = []) :
    analyzer.remarks workspace path = [] := by
  rw [remarks, verdict, hread, judge, hshort]
  rfl

/-- Of files those are passed over as a whole that are refused. -/
theorem countP_isFile_skips (analyzer : Analyzer) (workspace : Workspace) (files : List Path) :
    (files.flatMap (analyzer.skips workspace)).countP Skip.isFile =
      files.countP fun path => (analyzer.verdict workspace path).isRefused := by
  induction files with
  | nil => rfl
  | cons path rest ih =>
    rw [List.flatMap_cons, List.countP_append, ih, List.countP_cons, Nat.add_comm, skips,
      Verdict.countP_isFile_skips]

/-- Of files those long lines are passed over on which no node starts. -/
theorem countP_not_isFile_skips (analyzer : Analyzer) (workspace : Workspace) (files : List Path) :
    (files.flatMap (analyzer.skips workspace)).countP (fun skip => !skip.isFile) =
      (files.flatMap (analyzer.longLines workspace)).countP fun long => long.context?.isNone := by
  induction files with
  | nil => rfl
  | cons path rest ih =>
    rw [List.flatMap_cons, List.countP_append, ih, List.flatMap_cons, List.countP_append, skips,
      Verdict.countP_not_isFile_skips, longLines]

/-- A scan that ends well warns, file by file and line by line, of what it passes over: once of each
file that is refused and once of each long line on which no node starts. It counts the same. All
other warnings in the log are notes of the parser or of a classifier, so where these do not warn
there are no others; about a file without a long line there are none at all. -/
theorem scanDirectory_warns_of_skips {analyzer : Analyzer} {workspace : Workspace} {start : Path}
    {summary : Summary} (h : (analyzer.scanDirectory workspace start).outcome = .ok summary) :
    ∃ files, analyzer.discovered workspace start = .ok files ∧
      (analyzer.scanDirectory workspace start).warnings =
        Remark.warnings (files.flatMap (analyzer.remarks workspace)) ∧
      (files.flatMap (analyzer.remarks workspace)).filterMap Remark.skip? =
        files.flatMap (analyzer.skips workspace) ∧
      (analyzer.Quiet → (analyzer.scanDirectory workspace start).warnings =
        (files.flatMap (analyzer.skips workspace)).map Skip.warning) ∧
      (files.flatMap (analyzer.skips workspace)).countP Skip.isFile = summary.filesSkipped ∧
      (files.flatMap (analyzer.skips workspace)).countP (fun skip => !skip.isFile) =
        summary.linesUnresolved ∧
      (files.flatMap (analyzer.skips workspace)).length =
        summary.filesSkipped + summary.linesUnresolved ∧
      ∀ path ∈ files, ∀ content,
        workspace.files.readText workspace.directory (workspace.absolute path) = .ok content →
        Text.longLines content analyzer.maxLineLength = [] →
        analyzer.remarks workspace path = [] := by
  obtain ⟨files, hfound, hscanned, -⟩ := discovered_of_ok h
  obtain ⟨-, hsummary, -⟩ := (analyzer.follows_scanFiles workspace files).of_ok hscanned
  rw [foldr_files] at hsummary
  have hwarnings : (analyzer.scanDirectory workspace start).warnings =
      Remark.warnings (files.flatMap (analyzer.remarks workspace)) := by
    rw [Run.warnings_eq_seen]
    exact analyzer.leaves_scanDirectory workspace hfound summary h
  have hskips : (files.flatMap (analyzer.remarks workspace)).filterMap Remark.skip? =
      files.flatMap (analyzer.skips workspace) := by
    rw [List.filterMap_flatMap]
    exact List.flatMap_congr fun path _ => Verdict.filterMap_skip?_remarks analyzer _ _
  have hfiles : (files.flatMap (analyzer.skips workspace)).countP Skip.isFile =
      summary.filesSkipped := by
    rw [countP_isFile_skips, hsummary]
  have hlines : (files.flatMap (analyzer.skips workspace)).countP (fun skip => !skip.isFile) =
      summary.linesUnresolved := by
    rw [countP_not_isFile_skips, hsummary]
  refine ⟨files, hfound, hwarnings, hskips, ?_, hfiles, hlines, ?_, ?_⟩
  · intro hquiet
    rw [hwarnings, ← hskips]
    apply Remark.warnings_of_quiet
    intro entry hentry
    obtain ⟨path, -, hnoted⟩ := List.mem_flatMap.1 hentry
    exact hquiet.isWarning_of_noted hnoted
  · rw [← hfiles, ← hlines, List.length_eq_countP_add_countP Skip.isFile]
    simp only [Bool.not_eq_true, Bool.decide_eq_false]
  · intro path _ content hread hshort
    exact remarks_of_short hread hshort

/-- In the sample directory the second long line of the first file and the second file are passed
over, with a warning each. -/
theorem scanDirectory_warns_of_skips_sample :
    ((Sample.analyzer [Sample.marking]).scanDirectory Sample.workspace ⟨"/w"⟩).outcome =
        .ok ⟨1, 1, 2, 1, 1⟩ ∧
      (Sample.analyzer [Sample.marking]).Quiet ∧
      ((Sample.analyzer [Sample.marking]).scanDirectory Sample.workspace ⟨"/w"⟩).warnings =
        [⟨.warn, "Skipping /w/a.py:2: no syntax node starts on line 2"⟩,
          ⟨.warn, "Failed to parse /w/b.py: file is not valid UTF-8"⟩] := by
  have houtcome : ((Sample.analyzer [Sample.marking]).scanDirectory Sample.workspace
      ⟨"/w"⟩).outcome = .ok ⟨1, 1, 2, 1, 1⟩ := (Sample.outcome_eq _).trans rfl
  have hquiet : (Sample.analyzer [Sample.marking]).Quiet := by
    refine ⟨nofun, ?_⟩
    intro classifier hclassifier context entry hentry
    obtain rfl := List.mem_singleton.1 hclassifier
    cases hentry
  obtain ⟨files, hfound, -, -, hwarnings, -⟩ := scanDirectory_warns_of_skips houtcome
  rw [Sample.discovered_eq] at hfound
  cases hfound
  exact ⟨houtcome, hquiet, (hwarnings hquiet).trans rfl⟩

end Analyzer

end LineCoach
