import LineCoach.Proofs.Analyzer.Scope
import LineCoach.Proofs.Classifier.Distinct
import LineCoach.Proofs.Report.Views
import LineCoach.Proofs.Tree.SameLine

/-!
# Each kind of feedback at most once

On one line the classifiers that come with the program find each kind of violation at most once. The
lines of a file have different numbers, and the files of a scan are different places. So a scan
publishes each kind of feedback at most once for each line of each file, also when it fails halfway.
-/

namespace LineCoach

/-- Two events say the same kind of thing about the same line of the same file. -/
def Event.Repeats (event later : Event) : Prop :=
  event.path.Same later.path ∧ event.line = later.line ∧ event.kind.code = later.kind.code

instance (event later : Event) : Decidable (event.Repeats later) :=
  inferInstanceAs (Decidable (_ ∧ _))

/-- The classifiers of an analyzer come with the program, and their names are different. -/
structure Analyzer.Standard (analyzer : Analyzer) : Prop where
  builtIn : ∀ classifier ∈ analyzer.classifiers, classifier.IsBuiltIn
  names : (analyzer.classifiers.map Classifier.name).Nodup

namespace Analyzer

section Standard

variable (rule : ExtractVariable) (limits : FunctionSignature)

/-- The four classifiers that come with the program, with any limits. -/
theorem isBuiltIn_of_mem_four : ∀ classifier ∈ [LongComment.classifier, rule.classifier,
    MultiAssignment.classifier, limits.classifier], classifier.IsBuiltIn := by
  simp only [List.forall_mem_cons]
  exact ⟨.longComment, .extractVariable rule, .multiAssignment, .functionSignature limits, nofun⟩

/-- The four classifiers have different names. -/
theorem names_nodup_four : ([LongComment.classifier, rule.classifier, MultiAssignment.classifier,
    limits.classifier].map Classifier.name).Nodup := by
  change ["long-comment", "extract-variable", "multi-assignment", "function-signature"].Nodup
  decide

/-- The classifiers of a preset have different names. -/
theorem names_nodup_preset (preset : Preset) (config : Config) :
    ((preset.classifiers config).map Classifier.name).Nodup := by
  cases preset with
  | recommended => exact names_nodup_four _ _
  | commentsOnly => exact List.nodup_singleton _

/-- A check narrows down the classifiers of a preset. -/
theorem standard_of_analyzerFor {workspace : Workspace} {grammar : Concrete.Grammar}
    {options : Command.CheckOptions} {config : Config} {analyzer : Analyzer}
    (h : Command.analyzerFor workspace grammar options config = .ok analyzer) :
    analyzer.Standard := by
  obtain ⟨parser, -, finder, -, rfl⟩ := build_eq_ok_iff.1 h
  let settings := Command.withLimit config options.maxLineLength
  let preset := (Preset.selected settings).2
  let chosen := (Command.selectClassifiers settings options.classifiers).2
  have hchosen : chosen.Sublist (preset.classifiers settings) := by
    unfold chosen
    cases options.classifiers with
    | none => exact List.Sublist.refl _
    | some list => exact List.filter_sublist
  let made := Command.analyzerOptions grammar options settings chosen
  have hsublist : (chosen.filter made.runs).Sublist (preset.classifiers settings) :=
    List.filter_sublist.trans hchosen
  exact ⟨fun classifier hmem => Preset.isBuiltIn_of_mem (hsublist.subset hmem),
    (names_nodup_preset preset settings).sublist (hsublist.map Classifier.name)⟩

end Standard

variable {analyzer : Analyzer}

/-- The events of a line are of different kinds. -/
theorem Standard.pairwise_line (h : analyzer.Standard) (long : LongLine) :
    (long.events analyzer.classifiers).Pairwise fun event later => ¬ event.Repeats later := by
  rw [LongLine.events]
  cases long.context? with
  | none => exact List.Pairwise.nil
  | some context =>
    have hcodes := Classifier.nodup_codes_flatMap h.builtIn h.names context
    have hevents : analyzer.classifiers.flatMap (Classifier.events context) =
        (analyzer.classifiers.flatMap (Classifier.found context)).map
          fun violation => ⟨violation, context.location⟩ := List.map_flatMap.symm
    simp only [hevents, List.pairwise_map]
    exact (List.pairwise_map.1 hcodes).imp fun hcode hrepeats => hcode hrepeats.2.2

/-- The lines of a file have different numbers. -/
theorem Standard.pairwise_file (h : analyzer.Standard) (workspace : Workspace) (path : Path) :
    (analyzer.events workspace path).Pairwise fun event later => ¬ event.Repeats later := by
  rw [events, List.pairwise_flatMap]
  refine ⟨fun long _ => h.pairwise_line long, ?_⟩
  refine (analyzer.pairwise_longLines workspace path).imp ?_
  intro long later hlt event hevent other hother hrepeats
  have hline := congrArg Location.line (LongLine.location_of_mem_events hevent)
  have hline' := congrArg Location.line (LongLine.location_of_mem_events hother)
  exact Nat.ne_of_lt hlt (hline.symm.trans (hrepeats.2.1.trans hline'))

/-- Files that are different places have different lines. -/
theorem Standard.pairwise_files (h : analyzer.Standard) {workspace : Workspace} {files : List Path}
    (hfiles : files.Pairwise fun path later =>
      ¬ (workspace.absolute path).Same (workspace.absolute later)) :
    (files.flatMap (analyzer.events workspace)).Pairwise
      fun event later => ¬ event.Repeats later := by
  rw [List.pairwise_flatMap]
  refine ⟨fun path _ => h.pairwise_file workspace path, ?_⟩
  refine hfiles.imp ?_
  intro path later hplace event hevent other hother hrepeats
  rw [← path_of_mem_events hevent, ← path_of_mem_events hother] at hplace
  exact hplace hrepeats.1

/-- A scan of a file publishes its events or begins to. -/
theorem scanFile_isPrefix (analyzer : Analyzer) (workspace : Workspace) (path : Path) :
    (analyzer.scanFile workspace path).events <+: analyzer.events workspace path :=
  (analyzer.follows_scanFile workspace path).seen_isPrefix fun _ _ => isPrefix_of_fails

/-- A scan of a directory publishes the events of its files or begins to. -/
theorem scanDirectory_isPrefix (analyzer : Analyzer) {workspace : Workspace}
    (hworkspace : workspace.files.WellFormed) (start : Path) :
    ∃ files : List Path,
      (files.Pairwise fun path later =>
        ¬ (workspace.absolute path).Same (workspace.absolute later)) ∧
      (analyzer.scanDirectory workspace start).events <+:
        files.flatMap (analyzer.events workspace) := by
  have hseen := (analyzer.alike_scanDirectory workspace start).seen
  cases hfound : analyzer.discovered workspace start with
  | error failure =>
    rw [hfound] at hseen
    refine ⟨[], List.Pairwise.nil, ?_⟩
    rw [Run.events_eq_seen, hseen]
    exact List.nil_prefix
  | ok files =>
    rw [hfound] at hseen
    refine ⟨files, pairwise_discovered hworkspace hfound, ?_⟩
    rw [Run.events_eq_seen, hseen]
    exact (analyzer.follows_scanFiles workspace files).seen_isPrefix fun _ _ hpart =>
      hpart.isPrefix fun _ _ _ => isPrefix_of_fails

/-- In a tree whose comments have no children, the four classifiers that come with the program find
on one line different codes, no two kinds of comments, nothing about functions beside an assignment,
and nothing beside a comment that is the whole line. Whatever the tree and however it ends, a scan
with such classifiers publishes each kind of feedback at most once for each line of each file. The
scan of a check has such classifiers. -/
theorem feedback_at_most_once :
    (∀ script : Tree.Script,
      (∀ node ∈ script.build.nodes.toList, node.is .comment = true → node.children = []) →
      ∀ (location : Location) (anchor : Tree.Node), script.build.locate location.line = .ok anchor →
      ∀ (rule : ExtractVariable) (limits : FunctionSignature) (results : List (List Violation)),
        [LongComment.classifier, rule.classifier, MultiAssignment.classifier,
            limits.classifier].mapM
          (fun classifier => classifier.classify ⟨location, anchor, script.build⟩) = .ok results →
        (results.flatten.map Violation.code).Nodup ∧
        ¬ (.comment ∈ results.flatten ∧ .commentAfterStatement ∈ results.flatten) ∧
        (.multiAssignment ∈ results.flatten → ∀ violation ∈ results.flatten,
          ¬ "fundef_".toList <+: violation.code.toList) ∧
        (.comment ∈ results.flatten → results.flatten = [.comment])) ∧
      (∀ (analyzer : Analyzer) (workspace : Workspace), analyzer.Standard →
        workspace.files.WellFormed →
        ((analyzer.scan workspace).events.Pairwise fun event later => ¬ event.Repeats later) ∧
        ∀ path : Path,
          ((analyzer.scanDirectory workspace path).events.Pairwise
            fun event later => ¬ event.Repeats later) ∧
          (analyzer.scanFile workspace path).events.Pairwise
            fun event later => ¬ event.Repeats later) ∧
      ∀ (workspace : Workspace) (grammar : Concrete.Grammar) (options : Command.CheckOptions)
        (config : Config) (analyzer : Analyzer),
        Command.analyzerFor workspace grammar options config = .ok analyzer →
        analyzer.Standard := by
  refine ⟨?_, ?_, fun _ _ _ _ _ => standard_of_analyzerFor⟩
  · intro script hleaves location anchor hlocated rule limits results hresults
    have hlinked : script.build.Linked := by
      rw [Tree.Script.build_eq_ofRose]
      exact Tree.linked_ofRose _
    rw [Tree.locate_eq_ok_iff] at hlocated
    have hanchor : anchor ∈ script.build.nodes.toList :=
      List.mem_of_mem_drop (List.mem_of_mem_filter (List.mem_of_head? hlocated))
    obtain rfl := Classifier.eq_map_found_of_mapM hresults
    exact Classifier.findings_agree (isBuiltIn_of_mem_four rule limits)
      (names_nodup_four rule limits) hlinked hanchor (hleaves anchor hanchor) rfl
  · intro analyzer workspace hstandard hworkspace
    have hdirectory (path : Path) : (analyzer.scanDirectory workspace path).events.Pairwise
        fun event later => ¬ event.Repeats later := by
      obtain ⟨files, hfiles, hevents⟩ := analyzer.scanDirectory_isPrefix hworkspace path
      exact (hstandard.pairwise_files hfiles).sublist hevents.sublist
    have hfile (path : Path) : (analyzer.scanFile workspace path).events.Pairwise
        fun event later => ¬ event.Repeats later :=
      (hstandard.pairwise_file workspace path).sublist
        (analyzer.scanFile_isPrefix workspace path).sublist
    refine ⟨?_, fun path => ⟨hdirectory path, hfile path⟩⟩
    rw [scan]
    split
    · exact hfile _
    · exact hdirectory _

namespace Sample

/-- The operations that build the sample tree. -/
def commented : Tree.Script :=
  ⟨"module", ⟨⟨1, 0⟩, ⟨3, 0⟩⟩, [.leaf .comment "comment" ⟨⟨1, 0⟩, ⟨1, 4⟩⟩]⟩

/-- The comment of the sample tree. -/
def comment : Tree.Node where
  id := 1
  kind := .comment
  label := "comment"
  span := ⟨⟨1, 0⟩, ⟨1, 4⟩⟩
  parent := some 0
  children := []
  subtreeEnd := 2
  detail := none

theorem wellFormed_files : workspace.files.WellFormed := by
  refine .directory (by decide) (by decide) ?_
  simp only [List.forall_mem_singleton]
  refine .directory (by decide) (by decide) ?_
  simp only [List.forall_mem_cons, List.not_mem_nil, IsEmpty.forall_iff, implies_true, and_true]
  exact ⟨.file _, .file _⟩

end Sample

/-- The first line of the sample tree is a comment and nothing else, and a scan of the sample
directory with all classifiers repeats nothing. -/
theorem feedback_at_most_once_sample :
    Sample.commented.build.locate 1 = .ok Sample.comment ∧
      [LongComment.classifier, ({} : ExtractVariable).classifier, MultiAssignment.classifier,
          ({} : FunctionSignature).classifier].mapM
        (fun classifier => classifier.classify
          ⟨⟨⟨"/w/a.py"⟩, 1, "long\n"⟩, Sample.comment, Sample.commented.build⟩) =
        .ok [[.comment], [], [], []] ∧
      ([[.comment], [], [], []].flatten.map Violation.code).Nodup ∧
      ((Sample.analyzer allClassifiers).scan Sample.workspace).events.Pairwise
        fun event later => ¬ event.Repeats later := by
  have hlocated : Sample.commented.build.locate 1 = .ok Sample.comment := by decide +kernel
  have hresults : [LongComment.classifier, ({} : ExtractVariable).classifier,
      MultiAssignment.classifier, ({} : FunctionSignature).classifier].mapM
        (fun classifier => classifier.classify
          ⟨⟨⟨"/w/a.py"⟩, 1, "long\n"⟩, Sample.comment, Sample.commented.build⟩) =
        .ok [[.comment], [], [], []] := by decide +kernel
  have hstandard : (Sample.analyzer allClassifiers).Standard :=
    ⟨isBuiltIn_of_mem_four _ _, names_nodup_four _ _⟩
  have hfound := feedback_at_most_once.1 Sample.commented (by decide +kernel)
    ⟨⟨"/w/a.py"⟩, 1, "long\n"⟩ Sample.comment hlocated {} {} _ hresults
  have hscan := feedback_at_most_once.2.1 _ Sample.workspace hstandard Sample.wellFormed_files
  exact ⟨hlocated, hresults, hfound.1, hscan.1⟩

end Analyzer

end LineCoach
