import LineCoach.Proofs.Analyzer.Course
import LineCoach.Tree.Builder

/-!
# What a scan of a directory publishes

A scan that ends well has published the events of its files, one file after the other, and its
summary counts what these files hold. A scan that fails has published the events up to the place
where it failed. That place is one of four: the listing of the files, the reading or the parsing
of a file, or a classifier on a long line.
-/

namespace LineCoach

/-- What a classifier that fails leaves begins what it would have published. -/
theorem Classifier.isPrefix_of_fails {context : LineContext} {classifier : Classifier}
    {error : AnalyzerError} {part : List Event} (h : classifier.Fails context error part) :
    part <+: classifier.events context := by
  obtain ⟨failed⟩ := h
  exact List.nil_prefix

/-- What a line that fails leaves begins what it would have published. -/
theorem LongLine.isPrefix_of_fails {classifiers : List Classifier} {long : LongLine}
    {error : AnalyzerError} {part : List Event} (h : long.Fails classifiers error part) :
    part <+: long.events classifiers := by
  obtain ⟨located, stopped⟩ := h
  rw [LongLine.events, located]
  exact stopped.isPrefix fun classifier _ _ => Classifier.isPrefix_of_fails

/-- The events of a line are at the place of the line. -/
theorem LongLine.location_of_mem_events {classifiers : List Classifier} {long : LongLine}
    {event : Event} (h : event ∈ long.events classifiers) :
    event.location = ⟨long.path, long.line.number, long.line.text⟩ := by
  rw [LongLine.events] at h
  cases hcontext : long.context? with
  | none =>
    rw [hcontext] at h
    cases h
  | some context =>
    rw [hcontext] at h
    obtain ⟨classifier, -, hfound⟩ := List.mem_flatMap.1 h
    obtain ⟨violation, -, rfl⟩ := List.mem_map.1 hfound
    obtain ⟨anchor, -, rfl⟩ := Option.map_eq_some_iff.1 hcontext
    rfl

namespace Analyzer

/-- What a file that fails leaves begins what it would have published. -/
theorem isPrefix_of_fails {analyzer : Analyzer} {workspace : Workspace} {path : Path}
    {error : AnalyzerError} {part : List Event} (h : analyzer.Fails workspace path error part) :
    part <+: analyzer.events workspace path := by
  cases h with
  | unreadable judged => exact List.nil_prefix
  | refused judged strict => exact List.nil_prefix
  | stopped interrupted =>
    exact interrupted.isPrefix fun long _ _ => LongLine.isPrefix_of_fails

/-- The long lines of a file are those of its text, in the tree that its text is parsed to. -/
theorem longLines_cases (analyzer : Analyzer) (workspace : Workspace) (path : Path) :
    analyzer.longLines workspace path = [] ∨
      ∃ content tree, analyzer.parser.run analyzer.parseTimeout content = .ok tree ∧
        analyzer.longLines workspace path =
          (Text.longLines content analyzer.maxLineLength).map
            (LongLine.mk (workspace.absolute path) tree) := by
  rw [longLines, verdict]
  cases workspace.files.readText workspace.directory (workspace.absolute path) with
  | error failure => cases failure <;> exact Or.inl rfl
  | ok content =>
    rw [judge]
    cases hlong : Text.longLines content analyzer.maxLineLength with
    | nil => exact Or.inl rfl
    | cons first rest =>
      cases hparsed : analyzer.parser.run analyzer.parseTimeout content with
      | error error => exact Or.inl rfl
      | ok tree =>
        refine Or.inr ⟨content, tree, hparsed, ?_⟩
        rw [hlong]
        rfl

/-- A long line lies in the file that it is a line of. -/
theorem path_of_mem_longLines {analyzer : Analyzer} {workspace : Workspace} {path : Path}
    {long : LongLine} (h : long ∈ analyzer.longLines workspace path) :
    long.path = workspace.absolute path := by
  obtain hnone | ⟨content, tree, -, hlines⟩ := analyzer.longLines_cases workspace path
  · rw [hnone] at h
    cases h
  · rw [hlines] at h
    obtain ⟨line, -, rfl⟩ := List.mem_map.1 h
    rfl

/-- The events of a file have the path of the file. -/
theorem path_of_mem_events {analyzer : Analyzer} {workspace : Workspace} {path : Path}
    {event : Event} (h : event ∈ analyzer.events workspace path) :
    event.path = workspace.absolute path := by
  obtain ⟨long, hlong, hevent⟩ := List.mem_flatMap.1 h
  rw [← path_of_mem_longLines hlong]
  exact congrArg Location.path (LongLine.location_of_mem_events hevent)

/-- A long line is looked at in a tree that its file was parsed to. -/
theorem parsed_of_mem_longLines {analyzer : Analyzer} {workspace : Workspace} {path : Path}
    {long : LongLine} (h : long ∈ analyzer.longLines workspace path) :
    ∃ content, analyzer.parser.run analyzer.parseTimeout content = .ok long.tree := by
  obtain hnone | ⟨content, tree, hparsed, hlines⟩ := analyzer.longLines_cases workspace path
  · rw [hnone] at h
    cases h
  · rw [hlines] at h
    obtain ⟨line, -, rfl⟩ := List.mem_map.1 h
    exact ⟨content, hparsed⟩

/-- The long lines of a file come in ascending order. -/
theorem pairwise_longLines (analyzer : Analyzer) (workspace : Workspace) (path : Path) :
    (analyzer.longLines workspace path).Pairwise
      fun long later => long.line.number < later.line.number := by
  obtain hnone | ⟨content, tree, -, hlines⟩ := analyzer.longLines_cases workspace path
  · rw [hnone]
    exact List.Pairwise.nil
  · rw [hlines, List.pairwise_map]
    exact Text.pairwise_longLines content analyzer.maxLineLength

/-- What files add up to. -/
theorem foldr_files (analyzer : Analyzer) (workspace : Workspace) (files : List Path) :
    (files.map (analyzer.counts workspace)).foldr Summary.merge {} =
      { filesChecked := files.countP fun path => !(analyzer.verdict workspace path).isRefused
        filesSkipped := files.countP fun path => (analyzer.verdict workspace path).isRefused
        linesFlagged := (files.flatMap (analyzer.longLines workspace)).length
        linesUnresolved :=
          (files.flatMap (analyzer.longLines workspace)).countP fun long => long.context?.isNone
        feedbackPublished := (files.flatMap (analyzer.events workspace)).length } := by
  induction files with
  | nil => rfl
  | cons path rest ih =>
    rw [List.map_cons, List.foldr_cons, ih]
    simp only [Summary.merge, counts, List.countP_cons, List.flatMap_cons, List.length_append,
      List.countP_append, Nat.add_comm]
    cases (analyzer.verdict workspace path).isRefused <;> rfl

/-- A scan of a directory that ends well has found its files and scanned them. -/
theorem discovered_of_ok {analyzer : Analyzer} {workspace : Workspace} {start : Path}
    {summary : Summary} (h : (analyzer.scanDirectory workspace start).outcome = .ok summary) :
    ∃ files, analyzer.discovered workspace start = .ok files ∧
      (analyzer.scanFiles workspace files).outcome = .ok summary ∧
      (analyzer.scanDirectory workspace start).events =
        (analyzer.scanFiles workspace files).seen Occurrence.event? := by
  have halike := analyzer.alike_scanDirectory workspace start
  cases hfound : analyzer.discovered workspace start with
  | error failure =>
    rw [hfound] at halike
    rw [halike.outcome] at h
    cases h
  | ok files =>
    rw [hfound] at halike
    exact ⟨files, rfl, halike.outcome ▸ h, halike.seen⟩

/-- A scan that ends well publishes, file by file and line by line in ascending order, what the
classifiers find in turn. Its summary counts the files, their long lines, the long lines on which
no node starts, and the events. It is the scan of each file, one after the other. -/
theorem scanDirectory_publishes_all {analyzer : Analyzer} {workspace : Workspace} {start : Path}
    {summary : Summary} (h : (analyzer.scanDirectory workspace start).outcome = .ok summary) :
    ∃ files, analyzer.discovered workspace start = .ok files ∧
      (analyzer.scanDirectory workspace start).events =
        files.flatMap (analyzer.events workspace) ∧
      (∀ path ∈ files, (analyzer.longLines workspace path).Pairwise
        fun long later => long.line.number < later.line.number) ∧
      summary.filesChecked + summary.filesSkipped = files.length ∧
      summary =
        { filesChecked := files.countP fun path => !(analyzer.verdict workspace path).isRefused
          filesSkipped := files.countP fun path => (analyzer.verdict workspace path).isRefused
          linesFlagged := (files.flatMap (analyzer.longLines workspace)).length
          linesUnresolved :=
            (files.flatMap (analyzer.longLines workspace)).countP fun long => long.context?.isNone
          feedbackPublished := (analyzer.scanDirectory workspace start).events.length } ∧
      (analyzer.scanDirectory workspace start).events =
        files.flatMap (fun path => (analyzer.scanFile workspace path).events) ∧
      ∃ summaries : List Summary,
        files.map (fun path => (analyzer.scanFile workspace path).outcome) =
          summaries.map Except.ok ∧
        summary = summaries.foldr Summary.merge {} := by
  obtain ⟨files, hfound, hscanned, hevents⟩ := discovered_of_ok h
  obtain ⟨hpassed, hsummary, hseen⟩ := (analyzer.follows_scanFiles workspace files).of_ok hscanned
  have heach (path : Path) (hpath : path ∈ files) :=
    (analyzer.follows_scanFile workspace path).ends (hpassed path hpath)
  rw [hseen] at hevents
  refine ⟨files, hfound, hevents, ?_, ?_, ?_, ?_, files.map (analyzer.counts workspace), ?_, hsummary⟩
  · intro path _
    exact analyzer.pairwise_longLines workspace path
  · have hlength := List.length_eq_countP_add_countP (l := files)
      fun path => (analyzer.verdict workspace path).isRefused
    simp only [Bool.not_eq_true, Bool.decide_eq_false] at hlength
    rw [hsummary, foldr_files, Nat.add_comm]
    exact hlength.symm
  · rw [hsummary, foldr_files, hevents]
  · rw [hevents]
    exact List.flatMap_congr fun path hpath => (heach path hpath).2.symm
  · rw [List.map_map]
    exact List.map_congr_left fun path hpath => (heach path hpath).1

namespace Sample

/-- A text whose only node below the root is a comment on its first line. -/
def tree : Tree :=
  Tree.Script.build ⟨"module", ⟨⟨1, 0⟩, ⟨3, 0⟩⟩, [.leaf .comment "comment" ⟨⟨1, 0⟩, ⟨1, 4⟩⟩]⟩

/-- A parser that reads every text as the sample tree. -/
def parser : SourceParser where
  language := "sample"
  extensions := ["py"]
  parse _ := .ok tree
  parseWithin _ _ := .ok tree

/-- A classifier that finds a comment on every line. -/
def marking : Classifier where
  name := "marking"
  code := "S1"
  description := "every line is a comment"
  classify _ := .ok [.comment]

/-- A classifier that copes with no line. -/
def failing : Classifier where
  name := "failing"
  code := "S2"
  description := "no line can be classified"
  classify context := .error
    (.missingDetail "failing" context.anchor.kind context.location.line "signature")

/-- An analyzer for lines of at most three characters. -/
def analyzer (classifiers : List Classifier) : Analyzer where
  root := ⟨"/w"⟩
  parser := parser
  classifiers := classifiers
  finder := ⟨["py"], [], []⟩
  maxLineLength := 3
  parseTimeout := none
  failOnParseError := false

/-- A file of two long lines and a file that is not UTF-8. -/
def directory : FileTree :=
  .directory [("a.py", .file "long\nlonger\n".toUTF8), ("b.py", .file ⟨#[0xff]⟩)]

/-- A workspace with these two files. -/
def workspace : Workspace where
  files := .directory [("w", directory)]
  directory := ⟨"/"⟩

/-- The files of the sample directory are already in order. -/
theorem listing_eq : FileTree.listing ⟨"/w"⟩ directory = [⟨"/w/a.py"⟩, ⟨"/w/b.py"⟩] := by
  have hordered : (FileTree.listings ⟨"/w"⟩ [("a.py", .file "long\nlonger\n".toUTF8),
      ("b.py", .file ⟨#[0xff]⟩)]).Pairwise fun a b => a.1 ≤ b.1 := by decide
  rw [directory, FileTree.listing, List.mergeSort_of_pairwise (by simpa using hordered)]
  rfl

/-- Both files of the sample directory are found. -/
theorem discovered_eq (classifiers : List Classifier) :
    (analyzer classifiers).discovered workspace ⟨"/w"⟩ = .ok [⟨"/w/a.py"⟩, ⟨"/w/b.py"⟩] := by
  have hfiles : workspace.files.files workspace.directory (workspace.absolute ⟨"/w"⟩) =
      .ok (FileTree.listing ⟨"/w"⟩ directory) := rfl
  rw [discovered, Finder.discover, hfiles, listing_eq]
  rfl

/-- The scan of the sample directory ends as the scan of its two files. -/
theorem outcome_eq (classifiers : List Classifier) :
    ((analyzer classifiers).scanDirectory workspace ⟨"/w"⟩).outcome =
      ((analyzer classifiers).scanFiles workspace [⟨"/w/a.py"⟩, ⟨"/w/b.py"⟩]).outcome := by
  rw [((analyzer classifiers).alike_scanDirectory workspace ⟨"/w"⟩).outcome, discovered_eq]

end Sample

/-- In the sample directory the second long line is unresolved and the second file is skipped. -/
theorem scanDirectory_publishes_all_sample :
    ((Sample.analyzer [Sample.marking]).scanDirectory Sample.workspace ⟨"/w"⟩).outcome =
        .ok ⟨1, 1, 2, 1, 1⟩ ∧
      ∃ files, (Sample.analyzer [Sample.marking]).discovered Sample.workspace ⟨"/w"⟩ = .ok files ∧
        ((Sample.analyzer [Sample.marking]).scanDirectory Sample.workspace ⟨"/w"⟩).events =
          files.flatMap ((Sample.analyzer [Sample.marking]).events Sample.workspace) := by
  have houtcome : ((Sample.analyzer [Sample.marking]).scanDirectory Sample.workspace
      ⟨"/w"⟩).outcome = .ok ⟨1, 1, 2, 1, 1⟩ := (Sample.outcome_eq _).trans rfl
  obtain ⟨files, hfound, hevents, -⟩ := scanDirectory_publishes_all houtcome
  exact ⟨houtcome, files, hfound, hevents⟩

/-- Where a scan of a directory can fail, with which error, and what it has published by then.
Everything before that place has passed. -/
inductive Aborted (analyzer : Analyzer) (workspace : Workspace) (start : Path) :
    AnalyzerError → List Event → Prop
  /-- The files cannot be listed. -/
  | listing {failure : FileTree.Failure}
      (found : analyzer.discovered workspace start = .error failure) :
      Aborted analyzer workspace start (.io failure) []
  /-- A file cannot be read. -/
  | reading {before after : List Path} {path : Path} {failure : FileTree.Failure}
      (found : analyzer.discovered workspace start = .ok (before ++ path :: after))
      (passed : ∀ earlier ∈ before, analyzer.Passes workspace earlier)
      (judged : analyzer.verdict workspace path = .unreadable failure) :
      Aborted analyzer workspace start (.io failure) (before.flatMap (analyzer.events workspace))
  /-- A file cannot be parsed, and that is an error. -/
  | parsing {before after : List Path} {path : Path} {error : ParseError}
      (found : analyzer.discovered workspace start = .ok (before ++ path :: after))
      (passed : ∀ earlier ∈ before, analyzer.Passes workspace earlier)
      (strict : analyzer.failOnParseError = true)
      (judged : analyzer.verdict workspace path = .refused error) :
      Aborted analyzer workspace start (.parse (workspace.absolute path) error)
        (before.flatMap (analyzer.events workspace))
  /-- A classifier fails on a long line of a file. -/
  | classifying {before after : List Path} {path : Path} {linesBefore linesAfter : List LongLine}
      {long : LongLine} {context : LineContext} {done rest : List Classifier}
      {classifier : Classifier} {error : ClassifyError}
      (found : analyzer.discovered workspace start = .ok (before ++ path :: after))
      (passed : ∀ earlier ∈ before, analyzer.Passes workspace earlier)
      (lines : analyzer.longLines workspace path = linesBefore ++ long :: linesAfter)
      (linesPassed : ∀ earlier ∈ linesBefore, earlier.Passes analyzer.classifiers)
      (located : long.context? = some context)
      (classifiers : analyzer.classifiers = done ++ classifier :: rest)
      (donePassed : ∀ earlier ∈ done, earlier.Passes context)
      (failed : classifier.classify context = .error error) :
      Aborted analyzer workspace start (.classify (workspace.absolute path) error)
        (before.flatMap (analyzer.events workspace) ++
          (linesBefore.flatMap (LongLine.events analyzer.classifiers) ++
            done.flatMap (Classifier.events context)))

/-- A scan whose files are found fails at the first of them that fails. -/
theorem Aborted.of_interrupted {analyzer : Analyzer} {workspace : Workspace} {start : Path}
    {files : List Path} {error : AnalyzerError} {part : List Event}
    (found : analyzer.discovered workspace start = .ok files)
    (h : Interrupted (analyzer.Passes workspace) (analyzer.events workspace)
      (analyzer.Fails workspace) files error part) :
    Aborted analyzer workspace start error part := by
  obtain @⟨before, path, after, _, rest, passed, failed⟩ := h
  cases failed with
  | unreadable judged =>
    rw [List.append_nil]
    exact .reading found passed judged
  | refused judged strict =>
    rw [List.append_nil]
    exact .parsing found passed strict judged
  | stopped interrupted =>
    generalize hlines : analyzer.longLines workspace path = lines at interrupted
    obtain @⟨linesBefore, long, linesAfter, _, rest, linesPassed, lineFailed⟩ := interrupted
    obtain @⟨context, _, _, located, stopped⟩ := lineFailed
    generalize hclassifiers : analyzer.classifiers = classifiers at stopped
    obtain @⟨done, classifier, others, _, rest, donePassed, classifierFailed⟩ := stopped
    obtain @⟨cause, failed⟩ := classifierFailed
    have hlong : long ∈ analyzer.longLines workspace path := by simp [hlines]
    have hpath : context.location.path = workspace.absolute path := by
      rw [← path_of_mem_longLines hlong]
      obtain ⟨anchor, -, rfl⟩ := Option.map_eq_some_iff.1 located
      rfl
    rw [hpath, List.append_nil, ← hclassifiers]
    exact .classifying found passed hlines linesPassed located hclassifiers donePassed failed

/-- A scan of a directory that fails has published exactly the events before the place where it
failed. These begin what the scan was to publish. -/
theorem scanDirectory_aborts {analyzer : Analyzer} {workspace : Workspace} {start : Path}
    {error : AnalyzerError} (h : (analyzer.scanDirectory workspace start).outcome = .error error) :
    Aborted analyzer workspace start error (analyzer.scanDirectory workspace start).events ∧
      ∀ files, analyzer.discovered workspace start = .ok files →
        (analyzer.scanDirectory workspace start).events <+:
          files.flatMap (analyzer.events workspace) := by
  have halike := analyzer.alike_scanDirectory workspace start
  rw [Run.events_eq_seen, halike.seen]
  rw [halike.outcome] at h
  cases hfound : analyzer.discovered workspace start with
  | error failure =>
    rw [hfound] at h
    cases h
    exact ⟨.listing hfound, fun files hfiles => nomatch hfiles⟩
  | ok files =>
    rw [hfound] at h
    have hstopped := ((analyzer.follows_scanFiles workspace files).of_error h).2
    refine ⟨Aborted.of_interrupted hfound hstopped, ?_⟩
    intro files' hfiles
    cases hfiles
    exact hstopped.isPrefix fun path _ _ => isPrefix_of_fails

/-- A classifier that fails on the first line of the sample directory leaves there what the one
before it found. -/
theorem scanDirectory_aborts_sample :
    ((Sample.analyzer [Sample.marking, Sample.failing]).scanDirectory Sample.workspace
        ⟨"/w"⟩).outcome =
        .error (.classify ⟨"/w/a.py"⟩ (.missingDetail "failing" .comment 1 "signature")) ∧
      Aborted (Sample.analyzer [Sample.marking, Sample.failing]) Sample.workspace ⟨"/w"⟩
        (.classify ⟨"/w/a.py"⟩ (.missingDetail "failing" .comment 1 "signature"))
        ((Sample.analyzer [Sample.marking, Sample.failing]).scanDirectory Sample.workspace
          ⟨"/w"⟩).events := by
  have houtcome : ((Sample.analyzer [Sample.marking, Sample.failing]).scanDirectory
      Sample.workspace ⟨"/w"⟩).outcome =
      .error (.classify ⟨"/w/a.py"⟩ (.missingDetail "failing" .comment 1 "signature")) :=
    (Sample.outcome_eq _).trans rfl
  exact ⟨houtcome, (scanDirectory_aborts houtcome).1⟩

end Analyzer

end LineCoach
