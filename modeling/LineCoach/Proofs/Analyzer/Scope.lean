import LineCoach.Proofs.Analyzer.Feedback
import LineCoach.Proofs.FileTree.Listing

/-!
# Scans of one file, of a directory and of the root

Whatever a scan is asked for, it comes down to a list of files: the file itself, or the files that
are found. So two analyzers are compared by the files that they go through and by what each file
holds for them, and only once for all scopes.

A scan that leaves something out does so in whole groups: all events of a file, of a line or of a
classifier. One law about lists says that dropping the groups is dropping their events.
-/

namespace LineCoach

/-- If all that an item gives is kept just when the item is, then what is kept comes from the kept
items. -/
theorem filter_flatMap_of_uniform {α β : Type} {keep : α → Bool} {keep' : β → Bool} {f : α → List β}
    {items : List α} (h : ∀ item ∈ items, ∀ given ∈ f item, keep' given = keep item) :
    (items.flatMap f).filter keep' = (items.filter keep).flatMap f := by
  induction items with
  | nil => rfl
  | cons item rest ih =>
    have hrest := ih fun other hother => h other (List.mem_cons_of_mem _ hother)
    have hitem := h item List.mem_cons_self
    rw [List.flatMap_cons, List.filter_append, hrest]
    cases hkeep : keep item with
    | true =>
      have hall : (f item).filter keep' = f item :=
        List.filter_eq_self.2 fun given hgiven => (hitem given hgiven).trans hkeep
      rw [List.filter_cons_of_pos hkeep, List.flatMap_cons, hall]
    | false =>
      have hnone : (f item).filter keep' = [] := by
        refine List.filter_eq_nil_iff.2 fun given hgiven => ?_
        rw [hitem given hgiven, hkeep]
        exact Bool.false_ne_true
      have hdropped : ¬ keep item = true := by rw [hkeep]; exact Bool.false_ne_true
      rw [List.filter_cons_of_neg hdropped, hnone, List.nil_append]

/-- A result that is there comes from a value that is there. -/
theorem exists_of_map_ok {ε α β : Type} {value : Except ε α} {f : α → β} {result : β}
    (h : value.map f = .ok result) : ∃ a, value = .ok a ∧ f a = result := by
  cases value with
  | error e => cases h
  | ok a => exact ⟨a, rfl, Except.ok.inj h⟩

/-- What a scan is asked to go through. -/
inductive Scope where
  | file (path : Path)
  | directory (start : Path)
  /-- What the analyzer was made for. -/
  | root

/-- If the first run ends well, so does the second, and it publishes of the events of the first
those that are kept, in the same order. -/
def Run.Restricts (keep : Event → Bool) (run part : Run AnalyzerError Summary) : Prop :=
  ∀ summary, run.outcome = .ok summary →
    ∃ summary', part.outcome = .ok summary' ∧ part.events = run.events.filter keep

namespace Analyzer

/-- The analyzer that options make, with a parser and a finder. -/
def Options.assemble (options : Options) (directory : Path) (parser : SourceParser)
    (finder : Finder) : Analyzer where
  root := directory.join (options.root.getD options.config.analyzer.root)
  parser := parser
  classifiers := options.classifiers.filter options.runs
  finder := finder
  maxLineLength := options.maxLineLength.getD options.config.analyzer.maxLineLength
  parseTimeout := options.parseTimeout.getD options.config.analyzer.parseTimeout
  failOnParseError := options.failOnParseError

/-- An analyzer is made if there is a parser and a finder for all exclusions. -/
theorem build_eq_ok_iff {directory : Path} {options : Options} {analyzer : Analyzer} :
    (build directory options).2 = .ok analyzer ↔
      ∃ parser, options.parser = some parser ∧
        ∃ finder, Finder.new (options.extensions parser)
            (options.exclude ++ options.config.analyzer.exclude) = .ok finder ∧
          options.assemble directory parser finder = analyzer := by
  rw [build]
  cases hparser : options.parser with
  | none => simp
  | some parser =>
    cases hfinder : Finder.new (options.extensions parser)
      (options.exclude ++ options.config.analyzer.exclude) with
    | error error => simp [hfinder]
    | ok finder => simp [hfinder, Options.assemble]

/-- Scan what is asked for. -/
def scanScope (analyzer : Analyzer) (workspace : Workspace) : Scope → Run AnalyzerError Summary
  | .file path => analyzer.scanFile workspace path
  | .directory start => analyzer.scanDirectory workspace start
  | .root => analyzer.scan workspace

/-- The files that a scan goes through, in order. -/
def filesIn (analyzer : Analyzer) (workspace : Workspace) :
    Scope → Except FileTree.Failure (List Path)
  | .file path => .ok [path]
  | .directory start => analyzer.discovered workspace start
  | .root =>
    if workspace.files.isFile workspace.directory analyzer.root then .ok [analyzer.root]
    else analyzer.discovered workspace analyzer.root

/-- Which files a scan goes through is settled by the root and the finder. -/
theorem filesIn_congr {analyzer other : Analyzer} (hroot : analyzer.root = other.root)
    (hfinder : analyzer.finder = other.finder) (workspace : Workspace) (scope : Scope) :
    analyzer.filesIn workspace scope = other.filesIn workspace scope := by
  cases scope with
  | file path => rfl
  | directory start => simp only [filesIn, discovered, hfinder]
  | root => simp only [filesIn, discovered, hroot, hfinder]

/-- The analyzer with other classifiers. -/
def withClassifiers (analyzer : Analyzer) (classifiers : List Classifier) : Analyzer :=
  { analyzer with classifiers := classifiers }

section Scan

variable (analyzer : Analyzer) (workspace : Workspace)

/-- A scan of one file is a scan of a list with this file alone. -/
theorem alike_scanFiles_singleton (path : Path) :
    Run.Alike Occurrence.event? (analyzer.scanFile workspace path)
      (analyzer.scanFiles workspace [path]) := by
  change Run.Alike _ _ (analyzer.scanFile workspace path >>= pure)
  rw [bind_pure]
  exact Run.Alike.refl _

/-- A scan is the scan of the files that it goes through, if they can be listed. -/
theorem alike_scanScope (scope : Scope) :
    Run.Alike Occurrence.event? (analyzer.scanScope workspace scope)
      (match analyzer.filesIn workspace scope with
        | .error failure => Run.fail (.io failure)
        | .ok files => analyzer.scanFiles workspace files) := by
  cases scope with
  | file path => exact analyzer.alike_scanFiles_singleton workspace path
  | directory start => exact analyzer.alike_scanDirectory workspace start
  | root =>
    rw [scanScope, scan, filesIn]
    split
    · exact analyzer.alike_scanFiles_singleton workspace analyzer.root
    · exact analyzer.alike_scanDirectory workspace analyzer.root

/-- What files add up to in a scan. -/
def total (files : List Path) : Summary where
  filesChecked := files.countP fun path => !(analyzer.verdict workspace path).isRefused
  filesSkipped := files.countP fun path => (analyzer.verdict workspace path).isRefused
  linesFlagged := (files.flatMap (analyzer.longLines workspace)).length
  linesUnresolved :=
    (files.flatMap (analyzer.longLines workspace)).countP fun long => long.context?.isNone
  feedbackPublished := (files.flatMap (analyzer.events workspace)).length

variable {analyzer workspace} {scope : Scope}

/-- A scan that ends well got through all its files, published their events and added them up. -/
theorem files_of_ok {summary : Summary}
    (h : (analyzer.scanScope workspace scope).outcome = .ok summary) :
    ∃ files, analyzer.filesIn workspace scope = .ok files ∧
      (∀ path ∈ files, analyzer.Passes workspace path) ∧
      summary = analyzer.total workspace files ∧
      (analyzer.scanScope workspace scope).events = files.flatMap (analyzer.events workspace) := by
  have halike := analyzer.alike_scanScope workspace scope
  rw [halike.outcome] at h
  rw [Run.events_eq_seen, halike.seen]
  cases hfiles : analyzer.filesIn workspace scope with
  | error failure =>
    rw [hfiles] at h
    cases h
  | ok files =>
    rw [hfiles] at h
    obtain ⟨hpassed, hsummary, hseen⟩ := (analyzer.follows_scanFiles workspace files).of_ok h
    rw [foldr_files] at hsummary
    exact ⟨files, rfl, hpassed, hsummary, hseen⟩

/-- A scan that can get through all its files ends well. -/
theorem ok_of_files {files : List Path} (hfiles : analyzer.filesIn workspace scope = .ok files)
    (hpasses : ∀ path ∈ files, analyzer.Passes workspace path) :
    (analyzer.scanScope workspace scope).outcome = .ok (analyzer.total workspace files) ∧
      (analyzer.scanScope workspace scope).events = files.flatMap (analyzer.events workspace) := by
  have halike := analyzer.alike_scanScope workspace scope
  rw [hfiles] at halike
  obtain ⟨houtcome, hseen⟩ := (analyzer.follows_scanFiles workspace files).ends hpasses
  rw [foldr_files] at houtcome
  exact ⟨halike.outcome.trans houtcome, halike.seen.trans hseen⟩

/-- Two analyzers go through the same files, and on each of them the second gets through where the
first does and publishes those of its events that are kept. Then this holds of the scans. -/
theorem scanScope_of_each_file {part : Analyzer} {keep : Event → Bool}
    (hpasses : ∀ path, analyzer.Passes workspace path → part.Passes workspace path)
    (hevents : ∀ path,
      part.events workspace path = (analyzer.events workspace path).filter keep)
    (hroot : part.root = analyzer.root) (hfinder : part.finder = analyzer.finder)
    {summary : Summary} (h : (analyzer.scanScope workspace scope).outcome = .ok summary) :
    ∃ files, summary = analyzer.total workspace files ∧
      (part.scanScope workspace scope).outcome = .ok (part.total workspace files) ∧
      (part.scanScope workspace scope).events =
        (analyzer.scanScope workspace scope).events.filter keep := by
  obtain ⟨files, hfiles, hpassed, hsummary, hseen⟩ := files_of_ok h
  have hfiles' : part.filesIn workspace scope = .ok files :=
    (filesIn_congr hroot hfinder workspace scope).trans hfiles
  obtain ⟨houtcome, hseen'⟩ :=
    ok_of_files hfiles' fun path hpath => hpasses path (hpassed path hpath)
  refine ⟨files, hsummary, houtcome, ?_⟩
  rw [hseen, hseen', List.filter_flatMap]
  exact List.flatMap_congr fun path _ => hevents path

end Scan

namespace Sample

/-- Take every line of a text for a comment. A text that begins with a question mark is refused. -/
def readComments (content : String) : Except ParseError Tree :=
  if content.toList.head? = some '?' then .error .aborted
  else .ok (Tree.Script.build ⟨"module", ⟨⟨1, 0⟩, ⟨1, 0⟩⟩, (Text.lines content).map fun line =>
    .leaf .comment "comment" ⟨⟨line.number, 0⟩, ⟨line.number, line.length⟩⟩⟩)

/-- The sample analyzer with a parser that finds a comment on every line. -/
def commenting (classifiers : List Classifier) : Analyzer :=
  { analyzer classifiers with
    parser :=
      { language := "sample"
        extensions := ["py"]
        parse := readComments
        parseWithin := fun _ => readComments } }

/-- A file with two lines, one that cannot be parsed, and one in a directory of its own. -/
def courseFiles : List (String × FileTree) :=
  [("a.py", .file "long\nlonger\n".toUTF8), ("b.py", .file "?huh\n".toUTF8),
    ("old", .directory [("c.py", .file "longest\n".toUTF8)])]

/-- A workspace with these files. -/
def course : Workspace where
  files := .directory [("w", .directory courseFiles)]
  directory := ⟨"/"⟩

/-- The paths of these files, in the order of a scan. -/
def coursePaths : List Path :=
  [⟨"/w/a.py"⟩, ⟨"/w/b.py"⟩, ⟨"/w/old/c.py"⟩]

/-- A scan of the course goes through those of its files that belong to the scan. -/
theorem discovered_course (analyzer : Analyzer) :
    analyzer.discovered course ⟨"/w"⟩ = .ok (analyzer.finder.select coursePaths) := by
  have hfiles : course.files.files course.directory (course.absolute ⟨"/w"⟩) =
      .ok (FileTree.listing ⟨"/w"⟩ (.directory courseFiles)) := rfl
  have hold : FileTree.listing ⟨"/w/old"⟩ (.directory [("c.py", .file "longest\n".toUTF8)]) =
      [⟨"/w/old/c.py"⟩] :=
    FileTree.listing_of_ordered _ (List.pairwise_singleton _ _)
  have hlisting : FileTree.listing ⟨"/w"⟩ (.directory courseFiles) = coursePaths := by
    rw [FileTree.listing_of_ordered _ (by decide)]
    change [⟨"/w/a.py"⟩] ++ ([⟨"/w/b.py"⟩] ++ (FileTree.listing ⟨"/w/old"⟩ _ ++ [])) = _
    rw [hold]
    rfl
  rw [discovered, Finder.discover, hfiles, hlisting]

/-- A scan of the course ends as the scan of these files does. -/
theorem outcome_course (analyzer : Analyzer) :
    (analyzer.scanDirectory course ⟨"/w"⟩).outcome =
      (analyzer.scanFiles course (analyzer.finder.select coursePaths)).outcome := by
  rw [(analyzer.alike_scanDirectory course ⟨"/w"⟩).outcome, discovered_course]

end Sample

end Analyzer

end LineCoach
