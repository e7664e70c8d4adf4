import Mathlib.Algebra.Ring.Nat
import LineCoach.Command.Basic
import LineCoach.Proofs.Analyzer.Feedback
import LineCoach.Proofs.Feedback.Delivery
import LineCoach.Proofs.FileTree.Listing

/-!
# The views of a report show the same events

The text for people goes through the groups of a collector, the other forms of a report go through
its flat list, and the totals come from a counter. A collector that takes in events of several files
in turns would show them in another order in its groups. A scan does not give it such events: it
deals with one file after the other, and the files that it finds are different places. So all views
agree, and with them the exit status of a check.
-/

namespace LineCoach

/-- The value of a member of an object. -/
def JsonValue.member? (name : String) : JsonValue → Option JsonValue
  | .object members => members.lookup name
  | _ => none

namespace Report

/-- All views of a report show the same events, each once and in the same order, and its numbers
are the numbers of events. -/
structure Shows (report : Report) (events : List Event) : Prop where
  flat : report.collector.feedback = events
  grouped : report.collector.perFile.entries.flatMap Prod.snd = events
  counts : report.counter.perFile.entries =
    report.collector.perFile.entries.map fun (path, group) => (path, group.length)
  counts_sum : (report.counter.perFile.entries.map Prod.snd).sum = report.counter.total
  total : report.counter.total = events.length
  /-- The text has a heading for each group and behind it a paragraph for each event. -/
  text : ∃ groups : List (String × List Event), groups.flatMap Prod.snd = events ∧
    report.render .text = String.join (groups.map fun (heading, group) =>
      styled 1 heading ++ "\n" ++ String.join (group.map fun event => event.paragraph ++ "\n"))
        ++ report.countsText ++ report.totalsText
  compact : report.render .compact = String.join (events.map fun event => event.summary ++ "\n")
  json : report.json.member? "feedback" = some (.array (events.map Event.json))

/-- The groups of the report on events are the events of each place, in the order of the places'
first appearance. -/
theorem groups_ofEvents (events : List Event) (summary : Summary) :
    (ofEvents events summary).collector.perFile.entries =
      (Path.firstSpellings (events.map Event.path)).map fun path =>
        (path, PathMap.itemsOf Event.path events path) := by
  change (Subscriber.receiveAll ({} : Collector) events).perFile.entries = _
  simp only [Collector.perFile_receiveAll, PathMap.entries_gather, Collector.foldl_group]

/-- The counts of the report on events are the lengths of its groups. -/
theorem counts_ofEvents (events : List Event) (summary : Summary) :
    (ofEvents events summary).counter.perFile.entries =
      (ofEvents events summary).collector.perFile.entries.map fun (path, group) =>
        (path, group.length) := by
  rw [groups_ofEvents, List.map_map]
  change (Subscriber.receiveAll ({} : Counter) events).perFile.entries = _
  simp only [Counter.perFile_receiveAll, PathMap.entries_gather, List.foldl_add_const, Nat.one_mul,
    Nat.zero_add, Function.comp_def]

/-- A report on events that come file by file shows them in all its views. -/
theorem shows_ofEvents {β : Type} (files : List β) (path : β → Path) (content : β → List Event)
    (hpath : ∀ file, ∀ event ∈ content file, event.path.Same (path file))
    (hfiles : files.Pairwise fun file later => ¬ (path file).Same (path later))
    (summary : Summary) :
    (ofEvents (files.flatMap content) summary).Shows (files.flatMap content) := by
  let events := files.flatMap content
  let report := ofEvents events summary
  have hflat : report.collector.feedback = events := (Collector.keeps_receiveAll events).feedback
  have htotal : report.counter.total = events.length := (Counter.tallies_receiveAll events).total
  have hgrouped : report.collector.perFile.entries.flatMap Prod.snd = events := by
    rw [groups_ofEvents, List.flatMap_map]
    exact PathMap.regrouped_flatMap Event.path files path content hpath hfiles
  refine ⟨hflat, hgrouped, counts_ofEvents events summary, ?_, htotal, ?_, ?_, ?_⟩
  · have hlength := congrArg List.length hgrouped
    rw [List.length_flatMap] at hlength
    rw [counts_ofEvents, List.map_map, htotal, ← hlength]
    rfl
  · refine ⟨report.collector.displayGroups, ?_, rfl⟩
    rw [Collector.displayGroups, List.flatMap_map]
    exact hgrouped
  · exact congrArg (fun shown : List Event =>
      String.join (shown.map fun event => event.summary ++ "\n")) hflat
  · exact congrArg (fun shown : List Event =>
      some (JsonValue.array (shown.map Event.json))) hflat

end Report

namespace Analyzer

/-- The files that a scan finds are different places. -/
theorem pairwise_discovered {analyzer : Analyzer} {workspace : Workspace} {start : Path}
    {files : List Path} (hworkspace : workspace.files.WellFormed)
    (h : analyzer.discovered workspace start = .ok files) :
    files.Pairwise fun path later =>
      ¬ (workspace.absolute path).Same (workspace.absolute later) := by
  rw [discovered, Finder.discover] at h
  cases hfound : workspace.files.files workspace.directory (workspace.absolute start) with
  | error failure =>
    rw [hfound] at h
    cases h
  | ok found =>
    rw [hfound] at h
    obtain rfl : analyzer.finder.select found = files := Except.ok.inj h
    have hapart := FileTree.pairwise_files hworkspace hfound workspace.directory
    exact (hapart.filter _).filter _

/-- A scan that ends well goes through files that are different places, one after the other, and
counts the events that it publishes. -/
theorem scan_goes_through_files {analyzer : Analyzer} {workspace : Workspace} {summary : Summary}
    (hworkspace : workspace.files.WellFormed)
    (h : (analyzer.scan workspace).outcome = .ok summary) :
    ∃ files : List Path,
      (files.Pairwise fun path later =>
        ¬ (workspace.absolute path).Same (workspace.absolute later)) ∧
      (analyzer.scan workspace).events = files.flatMap (analyzer.events workspace) ∧
      summary.feedbackPublished = (analyzer.scan workspace).events.length := by
  rw [scan] at h ⊢
  split at h
  · next hfile =>
    obtain ⟨-, hsummary, hseen⟩ := (analyzer.follows_scanFile workspace analyzer.root).of_ok h
    refine ⟨[analyzer.root], List.pairwise_singleton _ _, ?_, ?_⟩
    · rw [if_pos hfile, Run.events_eq_seen, hseen, List.flatMap_singleton]
    · rw [if_pos hfile, Run.events_eq_seen, hseen, hsummary]
      rfl
  · next hfile =>
    obtain ⟨files, hfound, hscanned, hevents⟩ := discovered_of_ok h
    obtain ⟨-, hsummary, hseen⟩ := (analyzer.follows_scanFiles workspace files).of_ok hscanned
    refine ⟨files, pairwise_discovered hworkspace hfound, ?_, ?_⟩
    · rw [if_neg hfile, hevents, hseen]
    · rw [if_neg hfile, hevents, hseen, hsummary, foldr_files]

end Analyzer

namespace Command

/-- The configuration that a check goes by. -/
def configFor (workspace : Workspace) (environment : Environment) (asked : Option Path)
    (options : CheckOptions) : Except Failure Config :=
  let project := projectDirectory workspace options.path
  (loadConfig workspace
    (ConfigSource.resolve workspace project asked environment.userDirectory).2).2

/-- The analyzer that a check makes for a configuration. -/
def analyzerFor (workspace : Workspace) (grammar : Concrete.Grammar) (options : CheckOptions)
    (config : Config) : Except AnalyzerError Analyzer :=
  let config := withLimit config options.maxLineLength
  let classifiers := (selectClassifiers config options.classifiers).2
  (Analyzer.build workspace.directory (analyzerOptions grammar options config classifiers)).2

/-- A check whose scan ends well prints the report on it and exits with one if there is feedback. -/
theorem check_of_scanned {workspace : Workspace} {grammar : Concrete.Grammar}
    {environment : Environment} {asked : Option Path} {options : CheckOptions} {config : Config}
    {analyzer : Analyzer} {summary : Summary}
    (hconfig : configFor workspace environment asked options = .ok config)
    (hanalyzer : analyzerFor workspace grammar options config = .ok analyzer)
    (h : (analyzer.scan workspace).outcome = .ok summary) :
    let report := Report.ofEvents (analyzer.scan workspace).events summary
    let outcome := check workspace grammar environment asked options
    outcome.status = (if 0 < report.counter.total then 1 else 0) ∧
      outcome.output = report.render options.format := by
  rw [configFor] at hconfig
  rw [analyzerFor] at hanalyzer
  simp only [check, hconfig, checkWith, hanalyzer, h, and_self]

end Command

/-- After a scan that ends well a new counter and a new collector agree: the groups put together are
the flat list, so that all forms of the report show the same events in the same order, the counts
are the lengths of the groups, and they add up to the number of events that the scan published. A
check exits with one if and only if that number is positive. -/
theorem Analyzer.scan_views_agree {analyzer : Analyzer} {workspace : Workspace} {summary : Summary}
    (hworkspace : workspace.files.WellFormed)
    (h : (analyzer.scan workspace).outcome = .ok summary) :
    let events := (analyzer.scan workspace).events
    let report := Report.ofEvents events summary
    ([Sum.inl {}, Sum.inr {}].foldl Bus.register {} |>.publishAll events).subscribers =
        [Sum.inl report.counter, Sum.inr report.collector] ∧
      report.Shows events ∧
      report.counter.total = summary.feedbackPublished ∧
      ∀ grammar environment asked options config,
        Command.configFor workspace environment asked options = .ok config →
        Command.analyzerFor workspace grammar options config = .ok analyzer →
        let outcome := Command.check workspace grammar environment asked options
        (outcome.status = 1 ↔ 0 < summary.feedbackPublished) ∧
          outcome.output = report.render options.format := by
  obtain ⟨files, hfiles, hevents, hpublished⟩ := scan_goes_through_files hworkspace h
  have hshows := Report.shows_ofEvents files workspace.absolute (analyzer.events workspace)
    (fun path event hevent => congrArg Path.components (path_of_mem_events hevent)) hfiles summary
  rw [← hevents] at hshows
  have htotal := hshows.total.trans hpublished.symm
  refine ⟨?_, hshows, htotal, ?_⟩
  · rw [Bus.subscribers_publishAll, Bus.subscribers_registerAll]
    simp only [List.nil_append, List.map_cons, List.map_nil, Subscriber.receiveAll_sum]
    rfl
  · intro grammar environment asked options config hconfig hanalyzer
    obtain ⟨hstatus, houtput⟩ := Command.check_of_scanned hconfig hanalyzer h
    refine ⟨?_, houtput⟩
    rw [hstatus, htotal]
    by_cases hpositive : 0 < summary.feedbackPublished <;> simp [hpositive]

namespace Command.Sample

/-- A node without marks at the start of a text, as long as the text. -/
def node (kind : String) (children : List Concrete.Node) : Concrete.Node :=
  .node
    { kind, field := "", named := true, isError := false, isMissing := false, hasError := false
      startByte := 0, endByte := 6, start := ⟨0, 0⟩, stop := ⟨0, 6⟩ }
    children

/-- A grammar that reads every text as a comment. -/
def grammar : Concrete.Grammar :=
  fun _ => some (node "module" [node "comment" []])

/-- Two files with a comment each, one of them in a directory. -/
def directory : FileTree :=
  .directory [("a", .directory [("c.py", .file "# note\n".toUTF8)]),
    ("b.py", .file "# last\n".toUTF8)]

/-- A workspace with these two files. -/
def workspace : Workspace where
  files := .directory [("w", directory)]
  directory := ⟨"/w"⟩

/-- A check of the whole directory for lines of at most three characters. -/
def options : CheckOptions where
  path := ⟨"."⟩
  maxLineLength := some 3

theorem wellFormed_files : workspace.files.WellFormed := by
  refine .directory (by decide) (by decide) ?_
  simp only [List.forall_mem_singleton]
  refine .directory (by decide) (by decide) ?_
  simp only [List.forall_mem_cons, List.not_mem_nil, IsEmpty.forall_iff, implies_true, and_true]
  refine ⟨.directory (by decide) (by decide) ?_, .file _⟩
  simp only [List.forall_mem_singleton]
  exact .file _

/-- The files of the directory, the entries of which are in order already. -/
theorem listing_eq :
    FileTree.listing ⟨"/w/."⟩ directory = [⟨"/w/./a/c.py"⟩, ⟨"/w/./b.py"⟩] := by
  have hinner : FileTree.listing ⟨"/w/./a"⟩ (.directory [("c.py", .file "# note\n".toUTF8)]) =
      [⟨"/w/./a/c.py"⟩] := by
    rw [FileTree.listing, FileTree.listings_eq_map, List.map_singleton, List.mergeSort_singleton]
    rfl
  have hentries : FileTree.listings ⟨"/w/."⟩
      [("a", .directory [("c.py", .file "# note\n".toUTF8)]), ("b.py", .file "# last\n".toUTF8)] =
      [("a", [⟨"/w/./a/c.py"⟩]), ("b.py", [⟨"/w/./b.py"⟩])] := by
    rw [FileTree.listings, ← hinner]
    rfl
  rw [directory, FileTree.listing, hentries, List.mergeSort_of_pairwise (by decide)]
  rfl

/-- The scan of a check of the directory goes through its two files. -/
theorem outcome_scan {analyzer : Analyzer}
    (h : analyzerFor workspace grammar options {} = .ok analyzer) :
    (analyzer.scan workspace).outcome = .ok ⟨2, 0, 2, 0, 2⟩ := by
  let paths : List Path := [⟨"/w/./a/c.py"⟩, ⟨"/w/./b.py"⟩]
  have hfacts : (analyzerFor workspace grammar options {}).map (fun analyzer =>
      (analyzer.root, analyzer.finder.select paths,
        (analyzer.scanFiles workspace paths).outcome)) =
      .ok (⟨"/w/."⟩, paths, .ok ⟨2, 0, 2, 0, 2⟩) := by decide +kernel
  rw [h] at hfacts
  obtain ⟨hroot, hselect, hscan⟩ : analyzer.root = ⟨"/w/."⟩ ∧
      analyzer.finder.select paths = paths ∧
      (analyzer.scanFiles workspace paths).outcome = .ok ⟨2, 0, 2, 0, 2⟩ := by
    simpa using Except.ok.inj hfacts
  have hfiles : workspace.files.files workspace.directory (workspace.absolute ⟨"/w/."⟩) =
      .ok (FileTree.listing ⟨"/w/."⟩ directory) := rfl
  have hfound : analyzer.discovered workspace ⟨"/w/."⟩ = .ok paths := by
    rw [Analyzer.discovered, Finder.discover, hfiles, listing_eq]
    exact congrArg Except.ok hselect
  have hfile : workspace.files.isFile workspace.directory ⟨"/w/."⟩ = false := rfl
  rw [Analyzer.scan, hroot, hfile, if_neg Bool.false_ne_true,
    (analyzer.alike_scanDirectory workspace _).outcome, hfound]
  exact hscan

end Command.Sample

open Command.Sample in
/-- A check of two files with a comment each shows both and exits with one. -/
theorem Analyzer.scan_views_agree_sample :
    workspace.files.WellFormed ∧
      ∃ analyzer : Analyzer, Command.analyzerFor workspace grammar options {} = .ok analyzer ∧
        (analyzer.scan workspace).outcome = .ok ⟨2, 0, 2, 0, 2⟩ ∧
        (Report.ofEvents (analyzer.scan workspace).events ⟨2, 0, 2, 0, 2⟩).Shows
          (analyzer.scan workspace).events ∧
        (Command.check workspace grammar {} none options).status = 1 := by
  have hconfig : Command.configFor workspace {} none options = .ok {} := rfl
  have hmade : (Command.analyzerFor workspace grammar options {}).isOk = true := by decide +kernel
  cases hanalyzer : Command.analyzerFor workspace grammar options {} with
  | error failure =>
    rw [hanalyzer] at hmade
    cases hmade
  | ok analyzer =>
    have houtcome := outcome_scan hanalyzer
    obtain ⟨-, hshows, -, hcheck⟩ := scan_views_agree wellFormed_files houtcome
    have hstatus := (hcheck grammar {} none options {} hconfig hanalyzer).1
    exact ⟨wellFormed_files, analyzer, rfl, houtcome, hshows, hstatus.2 Nat.two_pos⟩

end LineCoach
