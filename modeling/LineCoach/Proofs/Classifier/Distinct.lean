import LineCoach.Proofs.Classifier.Reporter
import LineCoach.Proofs.Finder.Exclusion
import LineCoach.Proofs.Tree.Building
import LineCoach.Proofs.Tree.Children

/-!
# What is found on one line

The classifiers that come with the program know nothing of each other, and still their findings on
one line go together. Each violation says something about the line, and where two of them say what
cannot both be, at most one is found. A violation also tells its classifier, so that two findings
with the same code come from the same classifier, which finds each code once.
-/

namespace LineCoach

variable {context : LineContext} {violation : Violation}

/-- A node is of one kind. -/
theorem Tree.Node.kind_unique {node : Tree.Node} {kind kind' : Tree.Kind}
    (h : node.is kind = true) (h' : node.is kind' = true) : kind = kind' := by
  rw [is, decide_eq_true_eq] at h h'
  exact h.symm.trans h'

/-- What has to be so on a line for a violation to be found there. -/
def Violation.Holds (context : LineContext) : Violation → Prop
  | .comment => context.sameLineNodes = [context.anchor] ∧ context.anchor.is .comment = true
  | .commentAfterStatement => context.sameLineNodes ≠ [context.anchor]
  | .extractVariable => 0 < ExtractVariable.measure context
  | .multiAssignment => context.anchor.is .assignment = true
  | .longFunctionName => context.anchor.is .functionDefinition = true
  | .manyFunctionArguments _ => context.anchor.is .functionDefinition = true
  | .longFunctionArguments _ => context.anchor.is .functionDefinition = true

/-- What is found about comments holds. -/
theorem LongComment.holds_of_mem_found (h : violation ∈ LongComment.classifier.found context) :
    violation.Holds context := by
  change violation ∈ LongComment.found context.sameLineNodes at h
  cases hnodes : context.sameLineNodes with
  | nil =>
    rw [hnodes] at h
    cases h
  | cons first rest =>
    -- the first node of the line is the anchor
    obtain rfl : context.anchor = first := (List.cons.inj hnodes).1
    rw [hnodes] at h
    cases rest with
    | nil =>
      rw [LongComment.found, List.mem_ite_nil_right, List.mem_singleton] at h
      obtain ⟨hkind, rfl⟩ := h
      exact ⟨hnodes, hkind⟩
    | cons second more =>
      rw [LongComment.found, List.mem_ite_nil_right, List.mem_singleton] at h
      obtain ⟨-, rfl⟩ := h
      simp [Violation.Holds, hnodes]

/-- What is found about operands holds. -/
theorem ExtractVariable.holds_of_mem_found {rule : ExtractVariable}
    (h : violation ∈ rule.classifier.found context) : violation.Holds context := by
  obtain rfl := ExtractVariable.mem_found h
  change _ ∈ (if rule.maxOperands < measure context then _ else _) at h
  rw [List.mem_ite_nil_right] at h
  exact Nat.zero_lt_of_lt h.1

/-- What is found about assignments holds. -/
theorem MultiAssignment.holds_of_mem_found
    (h : violation ∈ MultiAssignment.classifier.found context) : violation.Holds context := by
  obtain rfl := MultiAssignment.mem_found h
  by_contra hkind
  rw [Violation.Holds] at hkind
  simp only [Classifier.found, classifier, classify, if_neg hkind] at h
  cases h

/-- What is found about signatures holds. -/
theorem FunctionSignature.holds_of_mem_found {rule : FunctionSignature}
    (h : violation ∈ rule.classifier.found context) : violation.Holds context := by
  have hkind : context.anchor.is .functionDefinition = true := by
    by_contra hkind
    simp only [Classifier.found, classifier, classify, if_neg hkind] at h
    cases h
  rcases FunctionSignature.mem_found h with rfl | ⟨count, rfl⟩ | ⟨count, rfl⟩ <;> exact hkind

/-- The codes of what is found about a signature, in their order. -/
theorem FunctionSignature.codes_sublist (rule : FunctionSignature) (signature : Tree.Signature) :
    ((rule.found signature).map Violation.code).Sublist
      ["fundef_long_name", "fundef_many_arguments", "fundef_long_arguments"] := by
  have hpiece (p : Prop) [Decidable p] (violation : Violation) :
      ((if p then [violation] else []).map Violation.code).Sublist [violation.code] := by
    split
    · exact List.Sublist.refl _
    · exact List.nil_sublist _
  rw [found, List.map_append, List.map_append]
  exact ((hpiece _ .longFunctionName).append (hpiece _ (.manyFunctionArguments _))).append
    (hpiece _ (.longFunctionArguments _))

namespace Classifier.IsBuiltIn

variable {classifier : Classifier}

/-- What a classifier finds on a line holds there. -/
theorem holds_of_mem_found (h : classifier.IsBuiltIn)
    (hfound : violation ∈ classifier.found context) : violation.Holds context := by
  cases h with
  | longComment => exact LongComment.holds_of_mem_found hfound
  | extractVariable rule => exact ExtractVariable.holds_of_mem_found hfound
  | multiAssignment => exact MultiAssignment.holds_of_mem_found hfound
  | functionSignature rule => exact FunctionSignature.holds_of_mem_found hfound

/-- A classifier finds each code once. -/
theorem nodup_codes (h : classifier.IsBuiltIn) (context : LineContext) :
    ((classifier.found context).map Violation.code).Nodup := by
  cases h with
  | longComment =>
    change ((LongComment.found context.sameLineNodes).map Violation.code).Nodup
    unfold LongComment.found
    split
    · exact List.nodup_nil
    · split <;> simp
    · split <;> simp
  | extractVariable rule =>
    change (List.map _ (if rule.maxOperands < ExtractVariable.measure context then _ else _)).Nodup
    split <;> simp
  | multiAssignment =>
    simp only [found, MultiAssignment.classifier, MultiAssignment.classify]
    by_cases hkind : context.anchor.is .assignment
    · cases context.anchor.assignment? with
      | none => simp [hkind]
      | some shape => by_cases hsplits : MultiAssignment.splits shape <;> simp [hkind, hsplits]
    · simp [hkind]
  | functionSignature rule =>
    simp only [found, FunctionSignature.classifier, FunctionSignature.classify]
    by_cases hkind : context.anchor.is .functionDefinition
    · cases context.anchor.signature? with
      | none => simp [hkind]
      | some signature =>
        simp only [hkind, if_true]
        exact (FunctionSignature.codes_sublist rule signature).nodup (by decide)
    · simp [hkind]

end Classifier.IsBuiltIn

/-- Violations with the same code belong to the same classifier. -/
theorem Violation.reporter_eq_of_code_eq {other : Violation} (h : violation.code = other.code) :
    violation.reporter = other.reporter := by
  cases violation <;> cases other <;> first | rfl | simp [code] at h

section Findings

variable {classifiers : List Classifier}

/-- The answers of classifiers that all succeed are what they find. -/
theorem Classifier.eq_map_found_of_mapM {results : List (List Violation)}
    (h : classifiers.mapM (fun classifier => classifier.classify context) = .ok results) :
    results = classifiers.map (Classifier.found context) := by
  induction classifiers generalizing results with
  | nil => exact (Except.ok.inj h).symm
  | cons classifier rest ih =>
    rw [List.mapM_cons] at h
    obtain ⟨first, hfirst, hmore⟩ := bind_eq_ok_iff.1 h
    obtain ⟨others, hothers, hresults⟩ := bind_eq_ok_iff.1 hmore
    obtain rfl : first :: others = results := Except.ok.inj hresults
    rw [List.map_cons, ← ih hothers, Classifier.found, hfirst]

/-- Different classifiers find different codes. -/
theorem Classifier.nodup_codes_flatMap (hbuiltIn : ∀ classifier ∈ classifiers, classifier.IsBuiltIn)
    (hnames : (classifiers.map Classifier.name).Nodup) (context : LineContext) :
    ((classifiers.flatMap (Classifier.found context)).map Violation.code).Nodup := by
  rw [List.map_flatMap, List.nodup_flatMap]
  refine ⟨fun classifier hmem => (hbuiltIn classifier hmem).nodup_codes context, ?_⟩
  refine (List.pairwise_map.1 hnames).imp_of_mem ?_
  intro classifier other hmem hother hname code hcode hcode'
  obtain ⟨violation, hfound, rfl⟩ := List.mem_map.1 hcode
  obtain ⟨violation', hfound', hsame⟩ := List.mem_map.1 hcode'
  have hreporter := ((hbuiltIn classifier hmem).reporter_of_mem_found hfound).1
  have hreporter' := ((hbuiltIn other hother).reporter_of_mem_found hfound').1
  rw [Violation.reporter_eq_of_code_eq hsame] at hreporter'
  exact hname (hreporter.symm.trans hreporter')

/-- A comment without children is its own subtree, so there are no operands to count. -/
theorem ExtractVariable.measure_eq_zero_of_comment (htree : context.tree.Linked)
    (hanchor : context.anchor ∈ context.tree.nodes.toList)
    (hkind : context.anchor.is .comment = true) (hleaf : context.anchor.children = []) :
    ExtractVariable.measure context = 0 := by
  have hsubtree : context.anchorSubtree = [context.anchor] := by
    rw [LineContext.anchorSubtree, htree.subtree_eq (context.tree.get?_id hanchor), Tree.children,
      hleaf, List.filterMap_nil, List.flatMap_nil]
  have hnone : operators context = [] := by
    rw [operators, hsubtree, List.filter_eq_nil_iff, List.forall_mem_singleton]
    intro hoperator
    rw [Bool.and_eq_true] at hoperator
    exact absurd (Tree.Node.kind_unique hkind hoperator.1) (by decide)
  rw [measure, hnone, List.flatMap_nil, List.length_nil]

/-- Where a line is a comment without children, nothing else holds. -/
theorem Violation.eq_comment_of_holds (htree : context.tree.Linked)
    (hanchor : context.anchor ∈ context.tree.nodes.toList)
    (hleaf : context.anchor.is .comment = true → context.anchor.children = [])
    (hcomment : Violation.comment.Holds context) (h : violation.Holds context) :
    violation = .comment := by
  obtain ⟨halone, hkind⟩ := hcomment
  have hmeasure := ExtractVariable.measure_eq_zero_of_comment htree hanchor hkind (hleaf hkind)
  cases violation with
  | comment => rfl
  | commentAfterStatement => exact absurd halone h
  | extractVariable => exact absurd hmeasure (Nat.ne_of_gt h)
  | multiAssignment => exact absurd (Tree.Node.kind_unique hkind h) (by decide)
  | longFunctionName => exact absurd (Tree.Node.kind_unique hkind h) (by decide)
  | manyFunctionArguments count => exact absurd (Tree.Node.kind_unique hkind h) (by decide)
  | longFunctionArguments count => exact absurd (Tree.Node.kind_unique hkind h) (by decide)

/-- Codes about functions are found on functions only. -/
theorem Violation.is_function_of_holds (hcode : "fundef_".toList <+: violation.code.toList)
    (h : violation.Holds context) : context.anchor.is .functionDefinition = true := by
  cases violation with
  | comment => exact absurd hcode (by decide)
  | commentAfterStatement => exact absurd hcode (by decide)
  | extractVariable => exact absurd hcode (by decide)
  | multiAssignment => exact absurd hcode (by decide)
  | longFunctionName => exact h
  | manyFunctionArguments count => exact h
  | longFunctionArguments count => exact h

/-- On a line of a tree whose comments have no children, classifiers with different names find
different codes, no two kinds of comments, and nothing about functions beside an assignment. A line
that is a comment is nothing else. -/
theorem Classifier.findings_agree (hbuiltIn : ∀ classifier ∈ classifiers, classifier.IsBuiltIn)
    (hnames : (classifiers.map Classifier.name).Nodup) (htree : context.tree.Linked)
    (hanchor : context.anchor ∈ context.tree.nodes.toList)
    (hleaf : context.anchor.is .comment = true → context.anchor.children = [])
    {found : List Violation} (hfound : classifiers.flatMap (Classifier.found context) = found) :
    (found.map Violation.code).Nodup ∧
      ¬ (.comment ∈ found ∧ .commentAfterStatement ∈ found) ∧
      (.multiAssignment ∈ found →
        ∀ violation ∈ found, ¬ "fundef_".toList <+: violation.code.toList) ∧
      (.comment ∈ found → found = [.comment]) := by
  have hcodes : (found.map Violation.code).Nodup := by
    rw [← hfound]
    exact nodup_codes_flatMap hbuiltIn hnames context
  have hholds : ∀ violation ∈ found, violation.Holds context := by
    intro violation hviolation
    rw [← hfound] at hviolation
    obtain ⟨classifier, hmem, hviolation⟩ := List.mem_flatMap.1 hviolation
    exact (hbuiltIn classifier hmem).holds_of_mem_found hviolation
  refine ⟨hcodes, ?_, ?_, ?_⟩
  · rintro ⟨hcomment, hafter⟩
    exact hholds _ hafter (hholds _ hcomment).1
  · intro hassignment violation hviolation hcode
    have hkind := Violation.is_function_of_holds hcode (hholds _ hviolation)
    exact absurd (Tree.Node.kind_unique hkind (hholds _ hassignment)) (by decide)
  · intro hcomment
    have hall : ∀ violation ∈ found, violation = .comment := fun violation hviolation =>
      Violation.eq_comment_of_holds htree hanchor hleaf (hholds _ hcomment) (hholds _ hviolation)
    have hsame := List.eq_replicate_of_mem hall
    have honce : found.length ≤ 1 := by
      rw [hsame] at hcodes
      exact List.nodup_replicate.1 hcodes.of_map
    have hsome : 0 < found.length := List.length_pos_of_mem hcomment
    rwa [Nat.le_antisymm honce hsome, List.replicate_one] at hsame

end Findings

end LineCoach
