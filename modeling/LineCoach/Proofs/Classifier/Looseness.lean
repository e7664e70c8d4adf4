import Mathlib.Data.List.Forall2
import LineCoach.Preset

/-!
# Looser limits of classifiers

Two of the classifiers have limits. A larger limit can silence them, and it can lower the number of
long names that a violation gives, but it cannot make them say anything new, and whether a
classifier fails does not depend on its limits. Half of the line length is a limit both for the name
of a function and for its list of parameters, where it works together with the other limits.
-/

namespace LineCoach

section Lists

variable {α : Type} {R : α → α → Prop}

/-- Parts that are in a relation up to omissions are so when they are put together. -/
theorem sublistForall₂_append {left left' right right' : List α}
    (h : List.SublistForall₂ R left right) (h' : List.SublistForall₂ R left' right') :
    List.SublistForall₂ R (left ++ left') (right ++ right') := by
  obtain ⟨kept, hrelated, hsub⟩ := List.sublistForall₂_iff.1 h
  obtain ⟨kept', hrelated', hsub'⟩ := List.sublistForall₂_iff.1 h'
  exact List.sublistForall₂_iff.2
    ⟨kept ++ kept', List.rel_append hrelated hrelated', hsub.append hsub'⟩

/-- Of two items with a condition the first may be missing more often. -/
theorem sublistForall₂_ite {p q : Prop} [Decidable p] [Decidable q] {item item' : α}
    (hcondition : p → q) (hitem : R item item') :
    List.SublistForall₂ R (if p then [item] else []) (if q then [item'] else []) := by
  by_cases hp : p
  · rw [if_pos hp, if_pos (hcondition hp)]
    exact .cons hitem .nil
  · rw [if_neg hp]
    exact .nil

end Lists

/-- A violation is the same as another, or it counts no more long names. -/
inductive Violation.Milder : Violation → Violation → Prop
  | same (violation : Violation) : Milder violation violation
  | fewerNames {count count' : Nat} (fewer : count ≤ count') :
      Milder (.longFunctionArguments count) (.longFunctionArguments count')

instance : Std.Refl Violation.Milder := ⟨.same⟩

/-- A milder violation has the same code. -/
theorem Violation.Milder.code_eq {mild violation : Violation} (h : mild.Milder violation) :
    mild.code = violation.code := by
  cases h <;> rfl

namespace FunctionSignature

/-- No limit is smaller. -/
structure LooserThan (loose strict : FunctionSignature) : Prop where
  line : strict.lineLengthLimit ≤ loose.lineLengthLimit
  parameters : strict.maxParameters ≤ loose.maxParameters
  name : strict.longParameterName ≤ loose.longParameterName

variable {loose strict : FunctionSignature}

/-- Under looser limits no more names are long. -/
theorem LooserThan.longNames_le (h : loose.LooserThan strict) (signature : Tree.Signature) :
    loose.longNames signature ≤ strict.longNames signature := by
  apply List.Sublist.length_le
  apply List.monotone_filter_right
  intro parameter hlong
  rw [decide_eq_true_eq] at hlong ⊢
  exact Nat.lt_of_le_of_lt h.name hlong

/-- Under looser limits less is wrong with a signature. -/
theorem LooserThan.found (h : loose.LooserThan strict) (signature : Tree.Signature) :
    List.SublistForall₂ Violation.Milder (loose.found signature) (strict.found signature) := by
  have hhalf : strict.lineLengthLimit / 2 ≤ loose.lineLengthLimit / 2 :=
    Nat.div_le_div_right h.line
  have hlong := h.longNames_le signature
  -- one condition for each kind of violation; the width is compared in two of them
  refine sublistForall₂_append (sublistForall₂_append ?_ ?_) ?_
  · exact sublistForall₂_ite (Nat.lt_of_le_of_lt hhalf) (.same _)
  · refine sublistForall₂_ite ?_ (.same _)
    rintro ⟨hwide, hmany⟩
    exact ⟨Nat.lt_of_le_of_lt hhalf hwide, Nat.lt_of_le_of_lt h.parameters hmany⟩
  · refine sublistForall₂_ite ?_ (.fewerNames hlong)
    rintro ⟨hwide, hseveral⟩
    exact ⟨Nat.lt_of_le_of_lt hhalf hwide, Nat.lt_of_lt_of_le hseveral hlong⟩

end FunctionSignature

namespace Classifier

/-- Two classifiers that come with the program are the same up to their limits, and no limit of the
first is smaller. -/
inductive LooserThan : Classifier → Classifier → Prop
  | longComment : LooserThan LongComment.classifier LongComment.classifier
  | extractVariable {loose strict : ExtractVariable}
      (operands : strict.maxOperands ≤ loose.maxOperands) :
      LooserThan loose.classifier strict.classifier
  | multiAssignment : LooserThan MultiAssignment.classifier MultiAssignment.classifier
  | functionSignature {loose strict : FunctionSignature} (limits : loose.LooserThan strict) :
      LooserThan loose.classifier strict.classifier

/-- Two answers about a line: both classifiers fail with the same error, or both have an answer and
the first finds less. -/
inductive Softens :
    Except ClassifyError (List Violation) → Except ClassifyError (List Violation) → Prop
  | error (error : ClassifyError) : Softens (.error error) (.error error)
  | ok {mild violations : List Violation}
      (found : List.SublistForall₂ Violation.Milder mild violations) :
      Softens (.ok mild) (.ok violations)

/-- An answer is no graver than itself. -/
theorem Softens.refl (answer : Except ClassifyError (List Violation)) : Softens answer answer := by
  cases answer with
  | error error => exact .error error
  | ok violations => exact .ok (Std.Refl.refl violations)

variable {loose strict : Classifier}

/-- A classifier with looser limits finds less, and it fails where the other does. -/
theorem LooserThan.classify (h : loose.LooserThan strict) (context : LineContext) :
    Softens (loose.classify context) (strict.classify context) := by
  cases h with
  | longComment => exact Softens.refl _
  | extractVariable operands =>
    exact .ok (sublistForall₂_ite (Nat.lt_of_le_of_lt operands) (.same _))
  | multiAssignment => exact Softens.refl _
  | @functionSignature loose strict limits =>
    change Softens (loose.classify context) (strict.classify context)
    unfold FunctionSignature.classify
    by_cases hkind : context.anchor.is .functionDefinition
    · rw [if_pos hkind, if_pos hkind]
      cases context.anchor.signature? with
      | none => exact .error _
      | some signature => exact .ok (limits.found signature)
    · rw [if_neg hkind, if_neg hkind]
      exact Softens.refl _

/-- Limits do not change the name of a classifier. -/
theorem LooserThan.name_eq (h : loose.LooserThan strict) : loose.name = strict.name := by
  cases h <;> rfl

end Classifier

/-- A configuration sets no smaller limits to the classifiers. -/
structure Config.LooserThan (loose strict : Config) : Prop where
  operands : (ExtractVariable.ofConfig strict).maxOperands ≤
    (ExtractVariable.ofConfig loose).maxOperands
  signature : (FunctionSignature.ofConfig loose).LooserThan (FunctionSignature.ofConfig strict)

/-- The classifiers of a preset that run are the same under looser limits, one by one and up to
these limits. -/
theorem Config.LooserThan.classifiers {loose strict : Config} (h : loose.LooserThan strict)
    (preset : Preset) (runs : String → Bool) :
    List.Forall₂ Classifier.LooserThan
      ((preset.classifiers loose).filter fun classifier => runs classifier.name)
      ((preset.classifiers strict).filter fun classifier => runs classifier.name) := by
  have hall : List.Forall₂ Classifier.LooserThan (preset.classifiers loose)
      (preset.classifiers strict) := by
    cases preset with
    | recommended =>
      exact .cons .longComment (.cons (.extractVariable h.operands)
        (.cons .multiAssignment (.cons (.functionSignature h.signature) .nil)))
    | commentsOnly => exact .cons .longComment .nil
  apply List.rel_filter ?_ hall
  intro classifier classifier' hlooser
  simp only [hlooser.name_eq]

end LineCoach
