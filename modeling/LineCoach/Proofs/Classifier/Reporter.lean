import LineCoach.Proofs.Analyzer.BuiltIn

/-!
# Which classifier a violation belongs to

No two of the classifiers that come with the program report violations of the same kind. So a
violation tells who reported it, whatever the limits were.
-/

namespace LineCoach

/-- The classifier that a violation belongs to, with its default limits. -/
def Violation.reporter : Violation → Classifier
  | .comment => LongComment.classifier
  | .commentAfterStatement => LongComment.classifier
  | .extractVariable => ({} : ExtractVariable).classifier
  | .multiAssignment => MultiAssignment.classifier
  | .longFunctionName => ({} : FunctionSignature).classifier
  | .manyFunctionArguments _ => ({} : FunctionSignature).classifier
  | .longFunctionArguments _ => ({} : FunctionSignature).classifier

variable {context : LineContext} {violation : Violation}

/-- What is found about comments. -/
theorem LongComment.mem_found (h : violation ∈ LongComment.classifier.found context) :
    violation = .comment ∨ violation = .commentAfterStatement := by
  change violation ∈ LongComment.found context.sameLineNodes at h
  unfold LongComment.found at h
  split at h
  · cases h
  · rw [List.mem_ite_nil_right, List.mem_singleton] at h
    exact Or.inl h.2
  · rw [List.mem_ite_nil_right, List.mem_singleton] at h
    exact Or.inr h.2

/-- What is found about operands. -/
theorem ExtractVariable.mem_found {rule : ExtractVariable}
    (h : violation ∈ rule.classifier.found context) : violation = .extractVariable := by
  change violation ∈ (if rule.maxOperands < measure context then _ else _) at h
  rw [List.mem_ite_nil_right, List.mem_singleton] at h
  exact h.2

/-- What is found about assignments. -/
theorem MultiAssignment.mem_found (h : violation ∈ MultiAssignment.classifier.found context) :
    violation = .multiAssignment := by
  simp only [Classifier.found, MultiAssignment.classifier, MultiAssignment.classify] at h
  by_cases hkind : context.anchor.is .assignment
  · rw [if_pos hkind] at h
    cases hshape : context.anchor.assignment? with
    | none =>
      rw [hshape] at h
      cases h
    | some shape =>
      simp only [hshape, List.mem_ite_nil_right, List.mem_singleton] at h
      exact h.2
  · rw [if_neg hkind] at h
    cases h

/-- What is found about signatures. -/
theorem FunctionSignature.mem_found {rule : FunctionSignature}
    (h : violation ∈ rule.classifier.found context) :
    violation = .longFunctionName ∨ (∃ count, violation = .manyFunctionArguments count) ∨
      ∃ count, violation = .longFunctionArguments count := by
  simp only [Classifier.found, FunctionSignature.classifier, FunctionSignature.classify] at h
  by_cases hkind : context.anchor.is .functionDefinition
  · rw [if_pos hkind] at h
    cases hsignature : context.anchor.signature? with
    | none =>
      rw [hsignature] at h
      cases h
    | some signature =>
      simp only [hsignature, FunctionSignature.found, List.mem_append, List.mem_ite_nil_right,
        List.mem_singleton] at h
      rcases h with (⟨-, h⟩ | ⟨-, h⟩) | ⟨-, h⟩
      · exact Or.inl h
      · exact Or.inr (Or.inl ⟨_, h⟩)
      · exact Or.inr (Or.inr ⟨_, h⟩)
  · rw [if_neg hkind] at h
    cases h

/-- What a classifier finds belongs to it. -/
theorem Classifier.IsBuiltIn.reporter_of_mem_found {classifier : Classifier}
    (h : classifier.IsBuiltIn) (hfound : violation ∈ classifier.found context) :
    violation.reporter.name = classifier.name ∧ violation.reporter.code = classifier.code := by
  cases h with
  | longComment => rcases LongComment.mem_found hfound with rfl | rfl <;> exact ⟨rfl, rfl⟩
  | extractVariable rule =>
    obtain rfl := ExtractVariable.mem_found hfound
    exact ⟨rfl, rfl⟩
  | multiAssignment =>
    obtain rfl := MultiAssignment.mem_found hfound
    exact ⟨rfl, rfl⟩
  | functionSignature rule =>
    rcases FunctionSignature.mem_found hfound with rfl | ⟨count, rfl⟩ | ⟨count, rfl⟩ <;>
      exact ⟨rfl, rfl⟩

end LineCoach
