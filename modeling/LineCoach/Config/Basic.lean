import LineCoach.Budget
import LineCoach.Path.Basic
import LineCoach.Toml.Value

/-!
# Configuration

What a user can set: a preset, the settings of the analysis, and a table of options for each
classifier. Everything has a default.
-/

namespace LineCoach

/-- The limit on the length of a line when none is set. -/
def defaultMaxLineLength : Nat := 100

/-- Settings of the analysis. -/
structure AnalyzerSettings where
  /-- File or directory to analyze. -/
  root : Path := ⟨"."⟩
  /-- Lines with more characters are classified. -/
  maxLineLength : Nat := defaultMaxLineLength
  /-- Extensions of the files to scan, without the dot. -/
  extensions : List String := ["py"]
  /-- Patterns of the paths to leave out. -/
  exclude : List String := ["**/.venv/**", "**/__pycache__/**"]
  /-- Time that the parse of one file may take. -/
  parseTimeout : Option Budget := some ⟨10000⟩
deriving DecidableEq, Repr

/-- Settings of one classifier. -/
structure ClassifierSettings where
  /-- Whether the classifier runs; it does when nothing is said. -/
  enabled : Option Bool := none
  /-- Options by name, in the order of the document. -/
  options : List (String × Toml.Value) := []

namespace ClassifierSettings

/-- A limit by its name. What is missing, negative or not an integer gives the default. -/
def limit (settings : ClassifierSettings) (key : String) (default : Nat) : Nat :=
  match (settings.options.lookup key).bind Toml.Value.integer? with
  | some (.ofNat value) => value
  | _ => default

end ClassifierSettings

/-- A whole configuration. -/
structure Config where
  preset : Option String := none
  analyzer : AnalyzerSettings := {}
  /-- Settings by the name of the classifier. -/
  classifiers : List (String × ClassifierSettings) := []

namespace Config

/-- The settings of a classifier, when there are any. -/
def classifier? (config : Config) (name : String) : Option ClassifierSettings :=
  config.classifiers.lookup name

/-- Whether a classifier runs, which it does unless the configuration says otherwise. -/
def isEnabled (config : Config) (name : String) : Bool :=
  ((config.classifier? name).bind ClassifierSettings.enabled).getD true

/-- A limit of a classifier by its name, or its default. -/
def limit (config : Config) (name key : String) (default : Nat) : Nat :=
  match config.classifier? name with
  | some settings => settings.limit key default
  | none => default

end Config

end LineCoach
