import LineCoach.Classifier.ExtractVariable
import LineCoach.Classifier.FunctionSignature
import LineCoach.Classifier.LongComment
import LineCoach.Classifier.MultiAssignment

/-!
# Presets

Named selections of classifiers, in the order in which they publish.
-/

namespace LineCoach

/-- A named selection of classifiers. -/
inductive Preset where
  /-- Every classifier. -/
  | recommended
  /-- Only the one about comments. -/
  | commentsOnly
deriving DecidableEq, Repr

namespace Preset

/-- The preset with this name in a configuration. -/
def ofName? (name : String) : Option Preset :=
  if name = "recommended" then some .recommended
  else if name = "comments-only" then some .commentsOnly
  else none

/-- The preset in words. -/
def describe : Preset → String
  | recommended => "Recommended"
  | commentsOnly => "CommentsOnly"

/-- The classifiers of the preset with the limits of a configuration. -/
def classifiers (preset : Preset) (config : Config) : List Classifier :=
  match preset with
  | recommended =>
    [LongComment.classifier, (ExtractVariable.ofConfig config).classifier,
      MultiAssignment.classifier, (FunctionSignature.ofConfig config).classifier]
  | commentsOnly => [LongComment.classifier]

/-- The preset that a configuration asks for, with a warning when there is none of that name. -/
def selected (config : Config) : List Log.Entry × Preset :=
  match config.preset with
  | none => ([], .recommended)
  | some name =>
    match ofName? name with
    | some preset => ([], preset)
    | none => ([⟨.warn, s!"Unknown preset '{name}', using recommended"⟩], .recommended)

end Preset

/-- Every classifier with its default limits. -/
def allClassifiers : List Classifier :=
  Preset.recommended.classifiers {}

/-- The classifiers that a configuration asks for. The disabled ones are among them. -/
def configuredClassifiers (config : Config) : List Log.Entry × List Classifier :=
  let (notes, preset) := Preset.selected config
  (notes, preset.classifiers config)

end LineCoach
