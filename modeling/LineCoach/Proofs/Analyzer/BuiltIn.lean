import LineCoach.Concrete.Parser
import LineCoach.Preset
import LineCoach.Proofs.Analyzer.Feedback
import LineCoach.Proofs.Concrete.Detail

/-!
# The classifiers that come with the program

Two of the four classifiers ask the first node of a line for a detail and fail where it is missing.
In a tree with all the details that its kinds promise they never do, and the parser gives no other
trees as long as the grammar gives every function a name and a list of parameters. So no scan with
this parser and these classifiers ends in a failed classification.
-/

namespace LineCoach

open Concrete (Grammar Node Source lower)

/-- The classifiers that come with the program, with any limits. -/
inductive Classifier.IsBuiltIn : Classifier → Prop
  | longComment : IsBuiltIn LongComment.classifier
  | extractVariable (rule : ExtractVariable) : IsBuiltIn rule.classifier
  | multiAssignment : IsBuiltIn MultiAssignment.classifier
  | functionSignature (rule : FunctionSignature) : IsBuiltIn rule.classifier

/-- Presets are made of the classifiers that come with the program. -/
theorem Preset.isBuiltIn_of_mem {preset : Preset} {config : Config} {classifier : Classifier}
    (h : classifier ∈ preset.classifiers config) : classifier.IsBuiltIn := by
  cases preset with
  | recommended =>
    simp only [classifiers, List.mem_cons, List.not_mem_nil, or_false] at h
    rcases h with rfl | rfl | rfl | rfl
    · exact .longComment
    · exact .extractVariable _
    · exact .multiAssignment
    · exact .functionSignature _
  | commentsOnly =>
    rw [classifiers, List.mem_singleton] at h
    subst h
    exact .longComment

/-- A classifier that comes with the program copes with every line whose first node has the detail
that its kind promises. -/
theorem Classifier.IsBuiltIn.passes {classifier : Classifier} (h : classifier.IsBuiltIn)
    {context : LineContext} (hanchor : context.anchor.Detailed) : classifier.Passes context := by
  cases h with
  | longComment => exact ⟨_, rfl⟩
  | extractVariable rule => exact ⟨_, rfl⟩
  | multiAssignment =>
    change ∃ violations, MultiAssignment.classify context = .ok violations
    by_cases hkind : context.anchor.kind = .assignment
    · obtain ⟨shape, hshape⟩ := Option.isSome_iff_exists.1 (hanchor.shape_iff.2 hkind)
      simp [MultiAssignment.classify, hshape, Tree.Node.is, hkind]
    · simp [MultiAssignment.classify, Tree.Node.is, hkind]
  | functionSignature rule =>
    change ∃ violations, rule.classify context = .ok violations
    by_cases hkind : context.anchor.kind = .functionDefinition
    · obtain ⟨signature, hsignature⟩ := Option.isSome_iff_exists.1 (hanchor.signature_iff.2 hkind)
      simp [FunctionSignature.classify, hsignature, Tree.Node.is, hkind]
    · simp [FunctionSignature.classify, Tree.Node.is, hkind]

namespace LongLine

variable {classifiers : List Classifier} {long : LongLine}

/-- The classifiers that come with the program cope with every line of a tree with all details. -/
theorem passes_of_detailed (hbuiltIn : ∀ classifier ∈ classifiers, classifier.IsBuiltIn)
    (htree : long.tree.Detailed) : long.Passes classifiers := by
  intro context hcontext classifier hclassifier
  obtain ⟨anchor, hfirst, rfl⟩ := Option.map_eq_some_iff.1 hcontext
  exact (hbuiltIn classifier hclassifier).passes (htree.nodes anchor (Tree.mem_of_firstOn? hfirst))

/-- A line that fails does not pass. -/
theorem not_passes_of_fails {error : AnalyzerError} {part : List Event}
    (h : long.Fails classifiers error part) : ¬ long.Passes classifiers := by
  intro hpasses
  obtain ⟨located, stopped⟩ := h
  obtain ⟨classifier, hclassifier, rest, failed⟩ := stopped.exists_fails
  obtain ⟨failed⟩ := failed
  obtain ⟨violations, hviolations⟩ := hpasses _ located classifier hclassifier
  rw [hviolations] at failed
  cases failed

end LongLine

/-- The grammar gives a name and a list of parameters to every function of a text that it can
read. -/
def Concrete.Grammar.SignsFunctions (grammar : Grammar) : Prop :=
  ∀ content root, grammar content = some root → root.info.hasError = false → root.AllSigned

/-- What the parser of a grammar gives is lowered from a concrete tree without errors. -/
theorem Concrete.Grammar.exists_root_of_run {grammar : Grammar} {limit : Option Budget}
    {content : String} {tree : Tree} (h : grammar.parser.run limit content = .ok tree) :
    ∃ root, grammar content = some root ∧ root.info.hasError = false ∧
      tree = lower (Source.ofString content) root := by
  cases hgrammar : grammar content with
  | none => cases limit <;> simp [SourceParser.run, parser, hgrammar] at h
  | some root =>
    have htree : treeOf content root = .ok tree := by
      cases limit <;> simpa [SourceParser.run, parser, hgrammar] using h
    rw [treeOf] at htree
    split at htree
    · cases htree
    · next herror =>
      cases htree
      exact ⟨root, rfl, eq_false_of_ne_true herror, rfl⟩

/-- The parser of a grammar gives trees with all details. -/
theorem Concrete.Grammar.SignsFunctions.detailed {grammar : Grammar}
    (h : grammar.SignsFunctions) {limit : Option Budget} {content : String} {tree : Tree}
    (hrun : grammar.parser.run limit content = .ok tree) : tree.Detailed := by
  obtain ⟨root, hroot, herror, rfl⟩ := exists_root_of_run hrun
  exact detailed_lower _ (h content root hroot herror)

namespace Analyzer

section Scan

variable {analyzer : Analyzer} {workspace : Workspace} {path : Path}

/-- A file on whose lines all classifiers pass does not end in a failed classification. -/
theorem not_fails_classify
    (h : ∀ long ∈ analyzer.longLines workspace path, long.Passes analyzer.classifiers)
    {failed : Path} {error : ClassifyError} {part : List Event} :
    ¬ analyzer.Fails workspace path (.classify failed error) part := by
  intro hfails
  cases hfails with
  | stopped interrupted =>
    obtain ⟨long, hlong, rest, hfailed⟩ := interrupted.exists_fails
    exact LongLine.not_passes_of_fails hfailed (h long hlong)

/-- The lines of every file pass when the trees have all details and the classifiers come with
the program. -/
theorem passes_of_mem_longLines {grammar : Grammar} (hgrammar : grammar.SignsFunctions)
    (hparser : analyzer.parser = grammar.parser)
    (hbuiltIn : ∀ classifier ∈ analyzer.classifiers, classifier.IsBuiltIn) :
    ∀ long ∈ analyzer.longLines workspace path, long.Passes analyzer.classifiers := by
  intro long hlong
  obtain ⟨content, hparsed⟩ := parsed_of_mem_longLines hlong
  rw [hparser] at hparsed
  exact LongLine.passes_of_detailed hbuiltIn (hgrammar.detailed hparsed)

/-- Where no file ends in a failed classification, no scan of a directory does. -/
theorem scanDirectory_ne_classify {failed : Path} {error : ClassifyError}
    (h : ∀ path part, ¬ analyzer.Fails workspace path (.classify failed error) part)
    (start : Path) :
    (analyzer.scanDirectory workspace start).outcome ≠ .error (.classify failed error) := by
  rw [(analyzer.alike_scanDirectory workspace start).outcome]
  cases analyzer.discovered workspace start with
  | error failure => exact nofun
  | ok files =>
    intro houtcome
    have hstopped := ((analyzer.follows_scanFiles workspace files).of_error houtcome).2
    obtain ⟨path, -, rest, hfailed⟩ := hstopped.exists_fails
    exact h path rest hfailed

end Scan

/-- Lowering a concrete tree whose functions all have a name and parameters gives every node the
detail that its kind promises, and the root none; on each line with a first node all classifiers
that come with the program then have an answer. So no scan by a grammar of such trees and with
these classifiers ends in a failed classification. -/
theorem builtIn_never_lack_detail :
    (∀ (source : Source) (root : Node), root.AllSigned →
      (lower source root).Detailed ∧
        ∀ line anchor, (lower source root).locate line = .ok anchor →
          ∀ (classifier : Classifier) (location : Location), classifier.IsBuiltIn →
            ∃ violations,
              classifier.classify ⟨location, anchor, lower source root⟩ = .ok violations) ∧
      ∀ grammar : Grammar, grammar.SignsFunctions →
        ∀ analyzer : Analyzer, analyzer.parser = grammar.parser →
          (∀ classifier ∈ analyzer.classifiers, classifier.IsBuiltIn) →
          ∀ (workspace : Workspace) (path failed : Path) (error : ClassifyError),
            (analyzer.scan workspace).outcome ≠ .error (.classify failed error) ∧
            (analyzer.scanDirectory workspace path).outcome ≠ .error (.classify failed error) ∧
            (analyzer.scanFile workspace path).outcome ≠ .error (.classify failed error) := by
  constructor
  · intro source root hsigned
    have hdetailed := Concrete.detailed_lower source hsigned
    refine ⟨hdetailed, ?_⟩
    intro line anchor hlocated classifier location hbuiltIn
    rw [Tree.locate_eq] at hlocated
    split at hlocated
    · next node hfirst =>
      cases hlocated
      exact hbuiltIn.passes (hdetailed.nodes _ (Tree.mem_of_firstOn? hfirst))
    · cases hlocated
  · intro grammar hgrammar analyzer hparser hbuiltIn workspace path failed error
    have hfails (path : Path) (part : List Event) :
        ¬ analyzer.Fails workspace path (.classify failed error) part :=
      not_fails_classify (passes_of_mem_longLines hgrammar hparser hbuiltIn)
    have hfile (path : Path) :
        (analyzer.scanFile workspace path).outcome ≠ .error (.classify failed error) :=
      fun houtcome => hfails path _ ((analyzer.follows_scanFile workspace path).of_error houtcome).2
    have hdirectory := scanDirectory_ne_classify hfails
    refine ⟨?_, hdirectory path, hfile path⟩
    rw [scan]
    split
    · exact hfile _
    · exact hdirectory _

namespace Sample

/-- A grammar that can read the sample text and no other. -/
def grammar : Grammar :=
  fun content =>
    if content = String.ofList Concrete.Sample.text then some Concrete.Sample.root else none

theorem signsFunctions_grammar : grammar.SignsFunctions := by
  intro content root hroot _
  rw [grammar] at hroot
  split at hroot
  · cases hroot
    decide
  · cases hroot

/-- The sample analyzer with this grammar and all classifiers that come with the program. -/
def builtIn : Analyzer :=
  { analyzer allClassifiers with parser := grammar.parser }

theorem isBuiltIn_of_mem {classifier : Classifier} (h : classifier ∈ builtIn.classifiers) :
    classifier.IsBuiltIn := by
  have hpreset : classifier ∈ Preset.recommended.classifiers {} := h
  exact Preset.isBuiltIn_of_mem hpreset

/-- A workspace with the sample text as its only file. -/
def functions : Workspace where
  files := .directory [("f.py", .file (String.ofList Concrete.Sample.text).toUTF8)]
  directory := ⟨"/"⟩

end Sample

/-- Both lines of the sample text, a function and an assignment, are classified. -/
theorem builtIn_never_lack_detail_sample :
    Concrete.Sample.root.AllSigned ∧
      (lower (Source.ofString (String.ofList Concrete.Sample.text)) Concrete.Sample.root).Detailed ∧
      (Sample.builtIn.scanFile Sample.functions ⟨"/f.py"⟩).outcome = .ok ⟨1, 0, 2, 0, 0⟩ ∧
      (Sample.builtIn.scanFile Sample.functions ⟨"/f.py"⟩).outcome ≠
        .error (.classify ⟨"/f.py"⟩
          (.missingDetail "multi-assignment" .assignment 2 "assignment shape")) := by
  have hsigned : Concrete.Sample.root.AllSigned := by decide
  have hscan := (builtIn_never_lack_detail.2 Sample.grammar Sample.signsFunctions_grammar
    Sample.builtIn rfl (fun _ => Sample.isBuiltIn_of_mem) Sample.functions ⟨"/f.py"⟩ ⟨"/f.py"⟩
    (.missingDetail "multi-assignment" .assignment 2 "assignment shape")).2.2
  have houtcome : (Sample.builtIn.scanFile Sample.functions ⟨"/f.py"⟩).outcome =
      .ok ⟨1, 0, 2, 0, 0⟩ := by decide +kernel
  exact ⟨hsigned, (builtIn_never_lack_detail.1 _ _ hsigned).1, houtcome, hscan⟩

end Analyzer

end LineCoach
