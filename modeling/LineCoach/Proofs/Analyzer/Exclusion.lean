import LineCoach.Proofs.Analyzer.Scope
import LineCoach.Proofs.Finder.Exclusion

/-!
# Adding exclusions

An exclusion keeps whole files out of a scan of a directory. Files do not influence one another, so
the scan publishes what it published before on the files that are left, in the same order. It makes
no difference where an exclusion comes from, the options or the configuration, and where it stands
among the others.

The path that an exclusion is held against is the one that the events carry. This is because a
working directory has an absolute path: what is found below it has one, too, and is not changed
when it is looked at from the working directory again.
-/

namespace LineCoach.Analyzer

section Finders

variable {analyzer : Analyzer} {workspace : Workspace} {start : Path}

/-- What is found from an absolute working directory is named by its absolute path. -/
theorem absolute_of_discovered (hworkspace : workspace.directory.isAbsolute = true)
    {files : List Path} (h : analyzer.discovered workspace start = .ok files) {path : Path}
    (hpath : path ∈ files) : workspace.absolute path = path := by
  rw [discovered, Finder.discover] at h
  cases hfound : workspace.files.files workspace.directory (workspace.absolute start) with
  | error failure =>
    rw [hfound] at h
    cases h
  | ok found =>
    rw [hfound] at h
    obtain rfl : analyzer.finder.select found = files := Except.ok.inj h
    have hmem : path ∈ found := List.mem_of_mem_filter (List.mem_of_mem_filter hpath)
    exact Path.join_of_absolute _
      (FileTree.isAbsolute_of_mem_files (Path.isAbsolute_join hworkspace start) hfound hmem)

/-- The analyzer with another finder. -/
def withFinder (analyzer : Analyzer) (finder : Finder) : Analyzer :=
  { analyzer with finder := finder }

variable {finder extra : Finder} (hextensions : finder.extensions = analyzer.finder.extensions)
  (hexcludes : ∀ path,
    finder.excludes path = (analyzer.finder.excludes path || extra.excludes path))

include hextensions hexcludes

/-- A finder that excludes more finds the files that the additional exclusions leave. -/
theorem discovered_withFinder (workspace : Workspace) (start : Path) :
    (analyzer.withFinder finder).discovered workspace start =
      (analyzer.discovered workspace start).map (List.filter fun path => !extra.excludes path) := by
  unfold discovered Finder.discover
  cases workspace.files.files workspace.directory (workspace.absolute start) with
  | error failure => rfl
  | ok found => exact congrArg Except.ok (Finder.select_of_excludes hextensions hexcludes found)

/-- A scan with a finder that excludes more publishes the events of the files that are left. -/
theorem restricts_withFinder (hworkspace : workspace.directory.isAbsolute = true) (start : Path) :
    Run.Restricts (fun event => !extra.excludes event.path)
      (analyzer.scanDirectory workspace start)
      ((analyzer.withFinder finder).scanDirectory workspace start) := by
  intro summary h
  change (analyzer.scanScope workspace (.directory start)).outcome = _ at h
  obtain ⟨files, hfiles, hpassed, -, hevents⟩ := files_of_ok h
  have hleft : (analyzer.withFinder finder).filesIn workspace (.directory start) =
      .ok (files.filter fun path => !extra.excludes path) := by
    rw [filesIn, discovered_withFinder hextensions hexcludes]
    exact congrArg (Except.map _) hfiles
  have hpasses : ∀ path ∈ files.filter fun path => !extra.excludes path,
      (analyzer.withFinder finder).Passes workspace path :=
    fun path hpath => hpassed path (List.mem_of_mem_filter hpath)
  obtain ⟨houtcome, hevents'⟩ := ok_of_files hleft hpasses
  refine ⟨_, houtcome, hevents'.trans ?_⟩
  have hkept : (files.flatMap (analyzer.events workspace)).filter
      (fun event => !extra.excludes event.path) =
      (files.filter fun path => !extra.excludes path).flatMap (analyzer.events workspace) := by
    apply filter_flatMap_of_uniform
    intro path hpath event hevent
    rw [path_of_mem_events hevent, absolute_of_discovered hworkspace hfiles hpath]
  rw [← hevents] at hkept
  exact hkept.symm

end Finders

/-- A scan of a root that is no file is a scan of a directory. -/
theorem scan_of_directory {analyzer : Analyzer} {workspace : Workspace}
    (h : workspace.files.isFile workspace.directory analyzer.root = false) :
    analyzer.scan workspace = analyzer.scanDirectory workspace analyzer.root := by
  rw [scan, h, if_neg Bool.false_ne_true]

/-- The options with other exclusions, their own and those of the configuration. -/
def Options.excluding (options : Options) (own configured : List String) : Options :=
  { options with
    exclude := own
    config := { options.config with
      analyzer := { options.config.analyzer with exclude := configured } } }

/-- Accepted exclusions that are added to those of an analyzer, by the options or by the
configuration and in any place, still make an analyzer. It goes through the same files without those
that the new exclusions keep out. If a scan of a directory ended well, so does the new one, and it
publishes the same events without those of the files that are left out. -/
theorem scanDirectory_more_exclusions {options : Options} {directory : Path}
    {own configured own' configured' more extensions : List String} {analyzer : Analyzer}
    {extra : Finder}
    (hbuilt : (build directory (options.excluding own configured)).2 = .ok analyzer)
    (hmore : Finder.new extensions more = .ok extra)
    (hmerged : ∀ text, text ∈ own' ++ configured' ↔ text ∈ own ++ configured ∨ text ∈ more) :
    ∃ narrower, (build directory (options.excluding own' configured')).2 = .ok narrower ∧
      (∀ workspace start, narrower.discovered workspace start =
        (analyzer.discovered workspace start).map
          (List.filter fun path => !extra.excludes path)) ∧
      ∀ workspace : Workspace, workspace.directory.isAbsolute = true →
        (∀ start, Run.Restricts (fun event => !extra.excludes event.path)
          (analyzer.scanDirectory workspace start) (narrower.scanDirectory workspace start)) ∧
        (workspace.files.isFile workspace.directory analyzer.root = false →
          Run.Restricts (fun event => !extra.excludes event.path)
            (analyzer.scan workspace) (narrower.scan workspace)) := by
  obtain ⟨parser, hparser, finder, hfinder, rfl⟩ := build_eq_ok_iff.1 hbuilt
  obtain ⟨finder', hfinder', hexcludes⟩ := Finder.exists_new_of_merged hfinder hmore hmerged
  let wide := (options.excluding own configured).assemble directory parser finder
  have hextensions : finder'.extensions = wide.finder.extensions :=
    (Finder.extensions_of_new hfinder').trans (Finder.extensions_of_new hfinder).symm
  refine ⟨wide.withFinder finder', ?_, discovered_withFinder hextensions hexcludes, ?_⟩
  · exact build_eq_ok_iff.2 ⟨parser, hparser, finder', hfinder', rfl⟩
  · intro workspace hworkspace
    have hdirectory := restricts_withFinder hextensions hexcludes hworkspace
    refine ⟨hdirectory, fun hroot => ?_⟩
    rw [scan_of_directory hroot]
    have hnarrow : (wide.withFinder finder').scan workspace =
        (wide.withFinder finder').scanDirectory workspace wide.root := scan_of_directory hroot
    rw [hnarrow]
    exact hdirectory wide.root

namespace Sample

/-- Options for lines of at most three characters, with every line taken for a comment. -/
def options : Options where
  parser := some (commenting []).parser
  classifiers := [marking]
  config := { analyzer := { maxLineLength := 3 } }

/-- How an analyzer that is made by options scans the course. -/
theorem exists_of_built {options : Options} {summary : Summary}
    (h : (build course.directory options).2.map (fun analyzer =>
      (analyzer.scanFiles course (analyzer.finder.select coursePaths)).outcome) = .ok (.ok summary)) :
    ∃ analyzer, (build course.directory options).2 = .ok analyzer ∧
      (analyzer.scanDirectory course ⟨"/w"⟩).outcome = .ok summary := by
  obtain ⟨analyzer, hbuilt, hscan⟩ := exists_of_map_ok h
  exact ⟨analyzer, hbuilt, (outcome_course analyzer).trans hscan⟩

end Sample

open Sample in
/-- Without the directory of old files the scan of the course publishes two events of three. -/
theorem scanDirectory_more_exclusions_sample :
    ∃ analyzer narrower extra,
      (build course.directory (options.excluding ["b.*"] [])).2 = .ok analyzer ∧
      Finder.new [] ["old/**"] = .ok extra ∧
      (build course.directory (options.excluding ["b.*"] ["old/**"])).2 = .ok narrower ∧
      course.directory.isAbsolute = true ∧
      (analyzer.scanDirectory course ⟨"/w"⟩).outcome = .ok ⟨2, 0, 3, 0, 3⟩ ∧
      (narrower.scanDirectory course ⟨"/w"⟩).outcome = .ok ⟨1, 0, 2, 0, 2⟩ ∧
      (narrower.scanDirectory course ⟨"/w"⟩).events =
        (analyzer.scanDirectory course ⟨"/w"⟩).events.filter
          (fun event => !extra.excludes event.path) := by
  obtain ⟨analyzer, hbuilt, hwide⟩ : ∃ analyzer,
      (build course.directory (options.excluding ["b.*"] [])).2 = .ok analyzer ∧
      (analyzer.scanDirectory course ⟨"/w"⟩).outcome = .ok ⟨2, 0, 3, 0, 3⟩ :=
    exists_of_built (by decide +kernel)
  obtain ⟨narrower, hnarrower, hnarrow⟩ : ∃ analyzer,
      (build course.directory (options.excluding ["b.*"] ["old/**"])).2 = .ok analyzer ∧
      (analyzer.scanDirectory course ⟨"/w"⟩).outcome = .ok ⟨1, 0, 2, 0, 2⟩ :=
    exists_of_built (by decide +kernel)
  have hread : (Finder.new [] ["old/**"]).map (fun _ => ()) = .ok () := by decide +kernel
  obtain ⟨extra, hmore, -⟩ := exists_of_map_ok hread
  have hmerged (text : String) :
      text ∈ ["b.*"] ++ ["old/**"] ↔ text ∈ ["b.*"] ++ [] ∨ text ∈ ["old/**"] := by simp
  obtain ⟨narrower', hnarrower', -, hscans⟩ := scanDirectory_more_exclusions hbuilt hmore hmerged
  obtain rfl : narrower = narrower' := Except.ok.inj (hnarrower.symm.trans hnarrower')
  have habsolute : course.directory.isAbsolute = true := by decide
  obtain ⟨summary, -, hevents⟩ := (hscans course habsolute).1 ⟨"/w"⟩ _ hwide
  exact ⟨analyzer, narrower, extra, hbuilt, hmore, hnarrower, habsolute, hwide, hnarrow, hevents⟩

end LineCoach.Analyzer
