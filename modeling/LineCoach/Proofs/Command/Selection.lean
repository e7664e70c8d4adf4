import LineCoach.Proofs.Analyzer.Scope
import LineCoach.Proofs.Classifier.Reporter
import LineCoach.Proofs.Report.Views

/-!
# Selecting classifiers by a list

A check can be told to use some classifiers only, by a list of their names or codes. Classifiers do
not influence one another, and a violation tells which of them reported it. So a check with a list
publishes those events of the check without it that belong to the classifiers that the list asks
for. The list is read as a set: the order of its tokens, their repetition and the blanks around them
make no difference, except to the warnings about unknown names.
-/

namespace LineCoach

section Classifiers

variable {classifiers : List Classifier} {wanted : Classifier → Bool} {keep : Event → Bool}

/-- A line that all classifiers cope with is one that some of them cope with. -/
theorem LongLine.Passes.filter {long : LongLine} (h : long.Passes classifiers)
    (wanted : Classifier → Bool) : long.Passes (classifiers.filter wanted) :=
  fun context hcontext classifier hclassifier =>
    h context hcontext classifier (List.mem_of_mem_filter hclassifier)

/-- A file that is got through with all classifiers is got through with some of them. -/
theorem Verdict.Passes.filter {verdict : Verdict} {strict : Bool}
    (h : verdict.Passes classifiers strict) (wanted : Classifier → Bool) :
    verdict.Passes (classifiers.filter wanted) strict := by
  cases verdict with
  | unreadable failure => exact h
  | refused error => exact h
  | examined lines => exact fun long hlong => (h long hlong).filter wanted

variable (hkeep : ∀ classifier ∈ classifiers, ∀ context, ∀ violation ∈ classifier.found context,
  keep ⟨violation, context.location⟩ = wanted classifier)

include hkeep

/-- On a line some of the classifiers publish their share of the events of all of them. -/
theorem LongLine.events_filter (long : LongLine) :
    long.events (classifiers.filter wanted) = (long.events classifiers).filter keep := by
  unfold LongLine.events
  cases long.context? with
  | none => rfl
  | some context =>
    symm
    apply filter_flatMap_of_uniform
    intro classifier hclassifier event hevent
    obtain ⟨violation, hviolation, rfl⟩ := List.mem_map.1 hevent
    exact hkeep classifier hclassifier context violation hviolation

end Classifiers

/-- A scan with some of the classifiers publishes their share of the events. -/
theorem Analyzer.restricts_withClassifiers {analyzer : Analyzer} {wanted : Classifier → Bool}
    {keep : Event → Bool}
    (hkeep : ∀ classifier ∈ analyzer.classifiers, ∀ context,
      ∀ violation ∈ classifier.found context,
        keep ⟨violation, context.location⟩ = wanted classifier)
    (workspace : Workspace) (scope : Scope) :
    Run.Restricts keep (analyzer.scanScope workspace scope)
      ((analyzer.withClassifiers (analyzer.classifiers.filter wanted)).scanScope workspace scope) := by
  intro summary h
  let chosen := analyzer.withClassifiers (analyzer.classifiers.filter wanted)
  have hpasses (path : Path) (hpassed : analyzer.Passes workspace path) :
      chosen.Passes workspace path := hpassed.filter wanted
  have hevents (path : Path) :
      chosen.events workspace path = (analyzer.events workspace path).filter keep := by
    unfold Analyzer.events
    rw [List.filter_flatMap]
    exact List.flatMap_congr fun long _ => LongLine.events_filter hkeep long
  obtain ⟨files, -, houtcome, hseen⟩ := scanScope_of_each_file hpasses hevents rfl rfl h
  exact ⟨_, houtcome, hseen⟩

namespace Command

/-- Whether a list asks for a classifier. -/
def asksFor (list : String) (classifier : Classifier) : Bool :=
  (tokens list).any (names · classifier)

/-- A list asks for classifiers by the set of its tokens. -/
theorem asksFor_congr {list list' : String}
    (h : ∀ token, token ∈ tokens list' ↔ token ∈ tokens list) : asksFor list' = asksFor list := by
  funext classifier
  unfold asksFor
  rw [Bool.eq_iff_iff, List.any_eq_true, List.any_eq_true]
  simp only [h]

/-- A list asks for classifiers by their names and codes. -/
theorem asksFor_of_same {classifier other : Classifier} (hname : other.name = classifier.name)
    (hcode : other.code = classifier.code) (list : String) :
    asksFor list other = asksFor list classifier := by
  simp only [asksFor, names, hname, hcode]

/-- A list narrows the classifiers of a configuration down to those that it asks for. -/
theorem selectClassifiers_list (config : Config) (list : String) :
    (selectClassifiers config (some list)).2 =
      (selectClassifiers config none).2.filter (asksFor list) := rfl

section Check

variable {workspace : Workspace} {grammar : Concrete.Grammar} {options : CheckOptions}
  {config : Config} {analyzer : Analyzer}

/-- The analyzer of a check without a list has the classifiers of the preset that the configuration
does not disable. -/
theorem classifiers_of_analyzerFor
    (h : analyzerFor workspace grammar { options with classifiers := none } config = .ok analyzer) :
    analyzer.classifiers =
      ((Preset.selected (withLimit config options.maxLineLength)).2.classifiers
        (withLimit config options.maxLineLength)).filter fun classifier =>
          (withLimit config options.maxLineLength).isEnabled classifier.name := by
  obtain ⟨parser, -, finder, -, rfl⟩ := Analyzer.build_eq_ok_iff.1 h
  rfl

/-- The analyzer of a check with a list is the one of the check without it, with the classifiers
that the list asks for. -/
theorem analyzerFor_list
    (h : analyzerFor workspace grammar { options with classifiers := none } config = .ok analyzer)
    (list : String) :
    analyzerFor workspace grammar { options with classifiers := some list } config =
      .ok (analyzer.withClassifiers (analyzer.classifiers.filter (asksFor list))) := by
  obtain ⟨parser, hparser, finder, hfinder, rfl⟩ := Analyzer.build_eq_ok_iff.1 h
  refine Analyzer.build_eq_ok_iff.2 ⟨parser, hparser, finder, hfinder, ?_⟩
  -- the list is applied before the configuration disables classifiers, which makes no difference
  simp only [Analyzer.Options.assemble, Analyzer.withClassifiers, analyzerOptions,
    selectClassifiers_list, List.filter_filter, Bool.and_comm]
  rfl

/-- Lists that ask for the same classifiers lead to the same analyzer, or to the same failure. -/
theorem analyzerFor_congr {list list' : String} (h : asksFor list' = asksFor list)
    (config : Config) :
    analyzerFor workspace grammar { options with classifiers := some list' } config =
      analyzerFor workspace grammar { options with classifiers := some list } config := by
  simp only [analyzerFor, selectClassifiers_list, h]
  rfl

/-- What a check leaves behind, its log apart, is settled by the analyzer that it makes. -/
theorem check_congr {options' : CheckOptions} (hpath : options'.path = options.path)
    (hformat : options'.format = options.format)
    (h : ∀ config, analyzerFor workspace grammar options' config =
      analyzerFor workspace grammar options config)
    (environment : Environment) (asked : Option Path) :
    { check workspace grammar environment asked options' with log := [] } =
      { check workspace grammar environment asked options with log := [] } := by
  simp only [check, hpath]
  cases (loadConfig workspace (ConfigSource.resolve workspace
    (projectDirectory workspace options.path) asked environment.userDirectory).2).2 with
  | error failure => rfl
  | ok config =>
    have hsame := h config
    simp only [analyzerFor] at hsame
    simp only [checkWith, hsame, hformat]
    cases (Analyzer.build workspace.directory (analyzerOptions grammar options
      (withLimit config options.maxLineLength)
      (selectClassifiers (withLimit config options.maxLineLength) options.classifiers).2)).2 with
    | error error => rfl
    | ok analyzer => cases hscan : (analyzer.scan workspace).outcome <;> simp only [hscan]

/-- A check has the classifiers of the configured preset, in their order, without those that the
configuration disables, and each violation that one of them finds belongs to it. With a list the
check is made of those among them that the list asks for; if the scan without the list ends well, so
does the scan with it, and it publishes the events that belong to them, in the same order. Another
list with the same tokens leads to the same analyzer, and nothing but the log can tell it apart. -/
theorem scan_by_list
    (h : analyzerFor workspace grammar { options with classifiers := none } config = .ok analyzer)
    (list : String) :
    let settings := withLimit config options.maxLineLength
    let chosen := analyzer.withClassifiers (analyzer.classifiers.filter (asksFor list))
    analyzer.classifiers = ((Preset.selected settings).2.classifiers settings).filter
        (fun classifier => settings.isEnabled classifier.name) ∧
      (∀ classifier ∈ analyzer.classifiers, ∀ context, ∀ violation ∈ classifier.found context,
        violation.reporter.name = classifier.name ∧ violation.reporter.code = classifier.code) ∧
      Run.Restricts (fun event => asksFor list event.kind.reporter)
        (analyzer.scan workspace) (chosen.scan workspace) ∧
      ∀ list', (∀ token, token ∈ tokens list' ↔ token ∈ tokens list) →
        analyzerFor workspace grammar { options with classifiers := some list' } config =
          .ok chosen ∧
        ∀ environment asked,
          { check workspace grammar environment asked { options with classifiers := some list' } with
              log := [] } =
            { check workspace grammar environment asked { options with classifiers := some list } with
              log := [] } := by
  have hclassifiers := classifiers_of_analyzerFor h
  have hreporter (classifier : Classifier) (hclassifier : classifier ∈ analyzer.classifiers)
      (context : LineContext) (violation : Violation)
      (hviolation : violation ∈ classifier.found context) :
      violation.reporter.name = classifier.name ∧ violation.reporter.code = classifier.code := by
    rw [hclassifiers] at hclassifier
    have hpreset := List.mem_of_mem_filter hclassifier
    exact (Preset.isBuiltIn_of_mem hpreset).reporter_of_mem_found hviolation
  have hkeep (classifier : Classifier) (hclassifier : classifier ∈ analyzer.classifiers)
      (context : LineContext) (violation : Violation)
      (hviolation : violation ∈ classifier.found context) :
      asksFor list violation.reporter = asksFor list classifier := by
    obtain ⟨hname, hcode⟩ := hreporter classifier hclassifier context violation hviolation
    exact asksFor_of_same hname hcode list
  refine ⟨hclassifiers, hreporter, Analyzer.restricts_withClassifiers hkeep workspace .root, ?_⟩
  intro list' htokens
  have hasked := asksFor_congr htokens
  refine ⟨?_, check_congr rfl rfl (analyzerFor_congr hasked)⟩
  exact (analyzerFor_congr hasked config).trans (analyzerFor_list h list)

end Check

namespace Sample

/-- A node without marks on a line, over six characters. -/
def nodeOn (row : Nat) (kind : String) (children : List Concrete.Node) : Concrete.Node :=
  .node
    { kind, field := "", named := true, isError := false, isMissing := false, hasError := false
      startByte := 0, endByte := 6, start := ⟨row, 0⟩, stop := ⟨row, 6⟩ }
    children

/-- A grammar that reads every text as a comment and a sum on the line below. -/
def sumGrammar : Concrete.Grammar :=
  fun _ => some (nodeOn 0 "module" [nodeOn 0 "comment" [],
    nodeOn 1 "binary_operator" [nodeOn 1 "identifier" [], nodeOn 1 "identifier" []]])

/-- A workspace with such a text. -/
def sumWorkspace : Workspace where
  files := .directory [("sum.py", .file "# note\na + bc\n".toUTF8)]
  directory := ⟨"/"⟩

/-- A check of this text for lines of at most three characters. -/
def sumOptions : CheckOptions where
  path := ⟨"sum.py"⟩
  maxLineLength := some 3

/-- A configuration that allows one operand on a line. -/
def sumConfig : Config where
  classifiers := [("extract-variable", { options := [("max_operands", .integer 1)] })]

/-- The analyzer of a check of the text. -/
def sumAnalyzer (list : Option String) : Except AnalyzerError Analyzer :=
  analyzerFor sumWorkspace sumGrammar { sumOptions with classifiers := list } sumConfig

end Sample

open Sample in
/-- Of the comment and the sum a list with the code of the second leaves the sum. -/
theorem scan_by_list_sample :
    ∃ analyzer chosen, sumAnalyzer none = .ok analyzer ∧
      sumAnalyzer (some " LL002,,other ,LL002") = .ok chosen ∧
      (analyzer.scan sumWorkspace).outcome = .ok ⟨1, 0, 2, 0, 2⟩ ∧
      (chosen.scan sumWorkspace).outcome = .ok ⟨1, 0, 2, 0, 1⟩ ∧
      (chosen.scan sumWorkspace).events = (analyzer.scan sumWorkspace).events.filter
        (fun event => asksFor "other,LL002" event.kind.reporter) := by
  have hall : (sumAnalyzer none).map (fun analyzer => (analyzer.scan sumWorkspace).outcome) =
      .ok (.ok ⟨1, 0, 2, 0, 2⟩) := by decide +kernel
  have hsum : (sumAnalyzer (some " LL002,,other ,LL002")).map
      (fun analyzer => (analyzer.scan sumWorkspace).outcome) = .ok (.ok ⟨1, 0, 2, 0, 1⟩) := by
    decide +kernel
  obtain ⟨analyzer, hanalyzer, hall⟩ := exists_of_map_ok hall
  obtain ⟨chosen, hchosen, hsum⟩ := exists_of_map_ok hsum
  have htokens (token : String) :
      token ∈ tokens " LL002,,other ,LL002" ↔ token ∈ tokens "other,LL002" := by
    have hlong : tokens " LL002,,other ,LL002" = ["LL002", "other", "LL002"] := by decide +kernel
    have hshort : tokens "other,LL002" = ["other", "LL002"] := by decide +kernel
    simp only [hlong, hshort, List.mem_cons, List.not_mem_nil, or_false]
    tauto
  obtain ⟨-, -, hrestricts, hlists⟩ := scan_by_list hanalyzer "other,LL002"
  have hsame := (hlists _ htokens).1.symm.trans hchosen
  obtain ⟨summary, -, hevents⟩ := hrestricts _ hall
  rw [Except.ok.inj hsame] at hevents
  exact ⟨analyzer, chosen, hanalyzer, hchosen, hall, hsum, hevents⟩

end Command

end LineCoach
