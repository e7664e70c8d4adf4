import LineCoach.Proofs.Analyzer.Scope
import LineCoach.Proofs.Classifier.Looseness

/-!
# Scans with looser limits

Two scans whose classifiers differ in their limits go the same way: they read and parse the same
files, they look at the same lines, and a classifier that fails does so in both. Only what is
published differs, and that is compared event by event. No step of a scan looks at what was
published before, so the comparison is carried from one classifier on one line up to the whole scan
by what it says about two runs one after the other.
-/

namespace LineCoach

/-- An event is at the same place as another, and its violation is no graver. -/
structure Event.Milder (mild event : Event) : Prop where
  location : mild.location = event.location
  kind : mild.kind.Milder event.kind

instance : Std.Refl Event.Milder := ⟨fun event => ⟨rfl, .same event.kind⟩⟩

/-- The file and the line of an event, and the code of its violation. -/
def Event.mark (event : Event) : Path × Nat × String :=
  (event.path, event.line, event.kind.code)

/-- A milder event has the same mark. -/
theorem Event.Milder.mark_eq {mild event : Event} (h : mild.Milder event) :
    mild.mark = event.mark := by
  simp only [Event.mark, Event.path, Event.line, h.location, h.kind.code_eq]

/-- Where events are milder up to omissions, their marks are the same up to omissions. -/
theorem Event.marks_sublist {mild events : List Event}
    (h : List.SublistForall₂ Event.Milder mild events) :
    (mild.map Event.mark).Sublist (events.map Event.mark) := by
  induction h with
  | nil => exact List.nil_sublist _
  | cons hevent _ ih =>
    rw [List.map_cons, List.map_cons, hevent.mark_eq]
    exact ih.cons_cons _
  | cons_right _ ih =>
    rw [List.map_cons]
    exact ih.cons _

namespace Run

variable {ε α β σ ι κ : Type}

/-- Both runs end well or both end with the same error, and the events of the first are milder than
those of the second, some of which it may leave out. -/
structure Softens (loose strict : Run ε α) : Prop where
  ending : (∃ result result', loose.outcome = .ok result ∧ strict.outcome = .ok result') ∨
    ∃ error, loose.outcome = .error error ∧ strict.outcome = .error error
  events : List.SublistForall₂ Event.Milder loose.events strict.events

namespace Softens

variable {loose strict : Run ε α}

/-- A run is no graver than itself. -/
theorem refl (run : Run ε α) : Softens run run := by
  refine ⟨?_, Std.Refl.refl _⟩
  cases run.outcome with
  | ok result => exact Or.inl ⟨result, result, rfl, rfl⟩
  | error error => exact Or.inr ⟨error, rfl, rfl⟩

/-- Two runs that only return something. -/
theorem pure (result result' : α) : Softens (pure result : Run ε α) (pure result') :=
  ⟨Or.inl ⟨result, result', rfl, rfl⟩, .nil⟩

/-- Runs that look like these are in the same relation. -/
theorem alike {loose' strict' : Run ε α} (h : Softens loose strict)
    (hloose : Alike Occurrence.event? loose' loose)
    (hstrict : Alike Occurrence.event? strict' strict) : Softens loose' strict' := by
  refine ⟨?_, ?_⟩
  · rw [hloose.outcome, hstrict.outcome]
    exact h.ending
  · rw [events_eq_seen, events_eq_seen, hloose.seen, hstrict.seen]
    exact h.events

/-- Both runs go on. Since their results may differ, what follows has to be in the relation whatever
the results are. -/
theorem bind {next next' : α → Run ε β} (h : Softens loose strict)
    (hnext : ∀ result result', Softens (next result) (next' result')) :
    Softens (loose >>= next) (strict >>= next') := by
  obtain ⟨result, result', hloose, hstrict⟩ | ⟨error, hloose, hstrict⟩ := h.ending
  · rw [bind_of_ok next hloose, bind_of_ok next' hstrict]
    refine ⟨(hnext result result').ending, ?_⟩
    simp only [Run.events, List.filterMap_append]
    exact sublistForall₂_append h.events (hnext result result').events
  · rw [bind_of_error next hloose, bind_of_error next' hstrict]
    exact ⟨Or.inr ⟨error, rfl, rfl⟩, h.events⟩

/-- Two loops over items that belong together. -/
theorem each {visit : ι → Run ε σ} {visit' : κ → Run ε σ} {R : ι → κ → Prop}
    (h : ∀ item item', R item item' → Softens (visit item) (visit' item')) (merge : σ → σ → σ)
    (zero : σ) {items : List ι} {items' : List κ} (hitems : List.Forall₂ R items items') :
    Softens (Run.each visit merge zero items) (Run.each visit' merge zero items') := by
  induction hitems with
  | nil => exact pure zero zero
  | cons hitem _ ih =>
    exact (h _ _ hitem).bind fun _ _ => ih.bind fun _ _ => pure _ _

/-- Two loops over the same items. -/
theorem each_same {visit visit' : ι → Run ε σ} (h : ∀ item, Softens (visit item) (visit' item))
    (merge : σ → σ → σ) (zero : σ) (items : List ι) :
    Softens (Run.each visit merge zero items) (Run.each visit' merge zero items) := by
  have hitems : List.Forall₂ Eq items items := List.forall₂_refl items
  refine each ?_ merge zero hitems
  rintro item _ rfl
  exact h item

end Softens

end Run

namespace Analyzer

open Run (Softens)

/-- Milder findings are published as milder events. -/
theorem softens_publishFound {mild violations : List Violation}
    (h : List.SublistForall₂ Violation.Milder mild violations) (name name' : String)
    (location : Location) :
    Softens (publishFound name location mild) (publishFound name' location violations) := by
  refine ⟨Or.inl ⟨_, _, outcome_publishFound .., outcome_publishFound ..⟩, ?_⟩
  rw [Run.events_eq_seen, Run.events_eq_seen, seen_publishFound, seen_publishFound]
  induction h with
  | nil => exact .nil
  | cons hviolation _ ih => exact .cons ⟨rfl, hviolation⟩ ih
  | cons_right _ ih => exact .cons_right ih

/-- A line is given to a classifier with looser limits. -/
theorem softens_offer {loose strict : Classifier} (h : loose.LooserThan strict)
    (context : LineContext) : Softens (offer context loose) (offer context strict) := by
  refine Softens.alike ?_ (Run.Alike.unseen rfl (seen_logAll _) _)
    (Run.Alike.unseen rfl (seen_logAll _) _)
  have hanswers := h.classify context
  generalize loose.classify context = answer, strict.classify context = answer' at hanswers ⊢
  cases hanswers with
  | error error => exact Softens.refl _
  | ok found => exact softens_publishFound found _ _ _

section Scan

variable (analyzer : Analyzer) (workspace : Workspace) {loose strict : List Classifier}
  (h : List.Forall₂ Classifier.LooserThan loose strict)

include h

/-- A long line is looked at with looser limits. -/
theorem softens_visitLong (long : LongLine) :
    Softens ((analyzer.withClassifiers loose).visitLong long)
      ((analyzer.withClassifiers strict).visitLong long) := by
  unfold visitLong visitLine
  cases long.tree.locate long.line.number with
  | error reason => exact Softens.refl _
  | ok anchor =>
    refine Softens.bind ?_ fun _ _ => Softens.pure _ _
    rw [classifyLine_eq_each, classifyLine_eq_each]
    refine Softens.each ?_ _ _ h
    intro classifier classifier' hlooser
    exact softens_offer hlooser _

/-- A file is scanned with looser limits. -/
theorem softens_scanFile (path : Path) :
    Softens ((analyzer.withClassifiers loose).scanFile workspace path)
      ((analyzer.withClassifiers strict).scanFile workspace path) := by
  refine Softens.alike ?_ (alike_scanFile _ workspace path) (alike_scanFile _ workspace path)
  -- the verdict on a file comes before any classifier
  change Softens
    ((analyzer.withClassifiers loose).carryOut _ (analyzer.verdict workspace path))
    ((analyzer.withClassifiers strict).carryOut _ (analyzer.verdict workspace path))
  cases analyzer.verdict workspace path with
  | unreadable failure => exact Softens.refl _
  | refused error => exact Softens.refl _
  | examined lines =>
    refine Softens.bind ?_ fun _ _ => Softens.pure _ _
    exact Softens.each_same (analyzer.softens_visitLong h) _ _ lines

/-- Files are scanned with looser limits. -/
theorem softens_scanScope (scope : Scope) :
    Softens ((analyzer.withClassifiers loose).scanScope workspace scope)
      ((analyzer.withClassifiers strict).scanScope workspace scope) := by
  refine Softens.alike ?_ (alike_scanScope _ workspace scope) (alike_scanScope _ workspace scope)
  have hfiles (classifiers : List Classifier) :
      (analyzer.withClassifiers classifiers).filesIn workspace scope =
        analyzer.filesIn workspace scope := filesIn_congr rfl rfl workspace scope
  rw [hfiles, hfiles]
  cases analyzer.filesIn workspace scope with
  | error failure => exact Softens.refl _
  | ok files =>
    simp only [scanFiles_eq_each]
    exact Softens.each_same (analyzer.softens_scanFile workspace h) _ _ files

end Scan

/-- Looser limits of the classifiers do not change how a scan ends, up to the counts of a scan that
ends well. They take away events and put none in: file, line and code of the events that are left
come in the same order, and their violations are the same, but that fewer names may be counted as
long. -/
theorem scanScope_looser_limits {loose strict : List Classifier}
    (h : List.Forall₂ Classifier.LooserThan loose strict) (analyzer : Analyzer)
    (workspace : Workspace) (scope : Scope) :
    let looseRun := (analyzer.withClassifiers loose).scanScope workspace scope
    let strictRun := (analyzer.withClassifiers strict).scanScope workspace scope
    ((∃ summary summary', looseRun.outcome = .ok summary ∧ strictRun.outcome = .ok summary') ∨
        ∃ error, looseRun.outcome = .error error ∧ strictRun.outcome = .error error) ∧
      (looseRun.events.map Event.mark).Sublist (strictRun.events.map Event.mark) ∧
      List.SublistForall₂ Event.Milder looseRun.events strictRun.events := by
  have hsoftens := analyzer.softens_scanScope workspace h scope
  exact ⟨hsoftens.ending, Event.marks_sublist hsoftens.events, hsoftens.events⟩

namespace Sample

/-- A text with a function of three parameters on its first line. -/
def signed : Tree :=
  Tree.Script.build ⟨"module", ⟨⟨1, 0⟩, ⟨3, 0⟩⟩,
    [.leaf .functionDefinition "function_definition" ⟨⟨1, 0⟩, ⟨1, 4⟩⟩,
      .attach 1 (.function ⟨"load", ["source", "target", "mode"], 20⟩)]⟩

/-- The sample analyzer with a parser that reads every text as this one. -/
def signing : Analyzer :=
  { analyzer [] with
    parser := { parser with parse := fun _ => .ok signed, parseWithin := fun _ _ => .ok signed } }

/-- A configuration with limits for lines, for parameters and for their names. -/
def limits (line parameters name : Nat) : Config where
  classifiers := [("function-signature", { options :=
    [("line_length_limit", .integer line), ("max_parameters", .integer parameters),
      ("long_parameter_name", .integer name)] })]

/-- A scan of the first file with the limits of a configuration. -/
def signedScan (config : Config) : Run AnalyzerError Summary :=
  (signing.withClassifiers (Preset.recommended.classifiers config)).scanScope workspace
    (.file ⟨"/w/a.py"⟩)

/-- Where the function is. -/
def signedPlace : Location := ⟨⟨"/w/a.py"⟩, 1, "long\n"⟩

end Sample

open Sample in
/-- With looser limits the name of the function is no longer long, and two of its parameters still
have a long name, where there were three. -/
theorem scanScope_looser_limits_sample :
    (limits 10 2 4).LooserThan (limits 6 2 3) ∧
      (signedScan (limits 6 2 3)).events =
        [⟨.longFunctionName, signedPlace⟩, ⟨.manyFunctionArguments 3, signedPlace⟩,
          ⟨.longFunctionArguments 3, signedPlace⟩] ∧
      (signedScan (limits 10 2 4)).events =
        [⟨.manyFunctionArguments 3, signedPlace⟩, ⟨.longFunctionArguments 2, signedPlace⟩] ∧
      List.SublistForall₂ Event.Milder (signedScan (limits 10 2 4)).events
        (signedScan (limits 6 2 3)).events := by
  have hlooser : (limits 10 2 4).LooserThan (limits 6 2 3) :=
    ⟨by decide, ⟨by decide, by decide, by decide⟩⟩
  have hscans := scanScope_looser_limits (hlooser.classifiers .recommended fun _ => true)
    signing workspace (.file ⟨"/w/a.py"⟩)
  exact ⟨hlooser, by decide +kernel, by decide +kernel, hscans.2.2⟩

end Analyzer

end LineCoach
