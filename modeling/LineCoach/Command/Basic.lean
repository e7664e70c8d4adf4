import LineCoach.Command.Arguments
import LineCoach.Command.ConfigSource
import LineCoach.Concrete.Parser
import LineCoach.Config.Reader
import LineCoach.Preset

/-!
# Commands

Carrying out a command gives what it prints and logs, its exit status, and the files as they are
afterwards. Checking files exits with one when there is feedback, so that scripts can ask.
-/

namespace LineCoach.Command

/-- The variables of the environment that matter. -/
structure Environment where
  /-- Names a configuration file. -/
  config : Option String := none
  /-- Names the user's directory for configurations. -/
  configDirectory : Option String := none
  home : Option String := none
deriving DecidableEq, Repr

namespace Environment

/-- The user's directory for configurations. An empty name of the home directory counts as none. -/
def userDirectory (environment : Environment) : Option Path :=
  match environment.configDirectory with
  | some directory => some ⟨directory⟩
  | none => (environment.home.filter (· ≠ "")).map fun home => Path.join ⟨home⟩ ⟨".longline"⟩

end Environment

/-- What a command leaves behind. -/
structure Outcome where
  status : Nat := 0
  output : String := ""
  /-- What is printed about a failure. -/
  failure : String := ""
  log : List Log.Entry := []
  files : FileTree

/-- A failure with what lies behind it, the nearest cause first. -/
structure Failure where
  message : String
  causes : List String := []
deriving DecidableEq, Repr

namespace Failure

/-- A text of several lines with `margin` in front of each line but the first. -/
def hanging (margin text : String) : String :=
  String.intercalate ("\n" ++ margin) (text.splitOn "\n")

/-- The failure as it is printed. Several causes are numbered; further lines of a cause stand
below its first one. -/
def render (failure : Failure) : String :=
  let head := s!"Error: {failure.message}\n"
  match failure.causes with
  | [] => head
  | [cause] => head ++ "\nCaused by:\n    " ++ hanging "    " cause ++ "\n"
  | causes =>
    head ++ "\nCaused by:\n"
      ++ String.join (causes.zipIdx.map fun (cause, index) =>
        s!"    {index}: " ++ hanging "       " cause ++ "\n")

/-- The failure of loading a configuration. -/
def ofConfig (path : Path) (error : ConfigError) : Failure where
  message := s!"Failed to load config: {path.text}"
  causes := error.message :: error.causes

/-- The failure of an analyzer, with what was attempted. -/
def ofAnalyzer (attempt : String) (error : AnalyzerError) : Failure where
  message := attempt
  causes := error.message :: error.causes

end Failure

/-- The tokens of a list between commas, without blanks around them; empty ones are left out. -/
def tokens (text : String) : List String :=
  ((text.toList.splitOnP (· = ',')).map fun token => String.ofList (Text.trim token)).filter (· ≠ "")

/-- Whether a token names a classifier, by its name or its code. -/
def names (token : String) (classifier : Classifier) : Bool :=
  classifier.name = token || classifier.code = token

/-- The classifiers of a configuration that a list asks for, all of them when there is no list,
with a warning for each token that names none. -/
def selectClassifiers (config : Config) (filter : Option String) :
    List Log.Entry × List Classifier :=
  let (notes, available) := configuredClassifiers config
  match filter with
  | none => (notes, available)
  | some list =>
    let wanted := tokens list
    let unknown := wanted.filter fun token => !available.any (names token)
    (notes ++ unknown.map (fun token => ⟨.warn, s!"Unknown classifier: {token}"⟩),
      available.filter fun classifier => wanted.any (names · classifier))

/-- Load the configuration from where it was found. -/
def loadConfig (workspace : Workspace) (source : ConfigSource) :
    List Log.Entry × Except Failure Config :=
  match source.path? with
  | none => ([], .ok {})
  | some path =>
    let notes := match source with
      | .global _ => [⟨.info, s!"Using global config: {path.text}"⟩]
      | _ => []
    match Config.ofFile workspace.files workspace.directory path with
    | .ok config => (notes, .ok config)
    | .error error => (notes, .error (.ofConfig path error))

/-- The options of the analyzer for a check. -/
def analyzerOptions (grammar : Concrete.Grammar) (options : CheckOptions) (config : Config)
    (classifiers : List Classifier) : Analyzer.Options where
  root := some options.path
  parser := some grammar.parser
  classifiers := classifiers
  exclude := options.exclude
  config := config

/-- The configuration with the limit of the command line, if there is one. -/
def withLimit (config : Config) (limit : Option Nat) : Config :=
  match limit with
  | none => config
  | some limit => { config with analyzer := { config.analyzer with maxLineLength := limit } }

/-- Check files with a configuration. -/
def checkWith (workspace : Workspace) (grammar : Concrete.Grammar) (options : CheckOptions)
    (config : Config) : Outcome :=
  let files := workspace.files
  let config := withLimit config options.maxLineLength
  let (selecting, classifiers) := selectClassifiers config options.classifiers
  let (building, built) :=
    Analyzer.build workspace.directory (analyzerOptions grammar options config classifiers)
  match built with
  | .error error =>
    { status := 1, failure := (Failure.ofAnalyzer "Failed to build analyzer" error).render
      log := selecting ++ building, files }
  | .ok analyzer =>
    let starting : Log.Entry := ⟨.info,
      s!"Analyzing {options.path.text} with {analyzer.classifiers.length} classifiers "
        ++ s!"(limit {analyzer.maxLineLength})"⟩
    let run := analyzer.scan workspace
    let log := selecting ++ building ++ [starting] ++ run.entries
    match run.outcome with
    | .error error =>
      { status := 1, failure := (Failure.ofAnalyzer "Analysis failed" error).render, log, files }
    | .ok summary =>
      let report := Report.ofEvents run.events summary
      { status := if 0 < report.counter.total then 1 else 0
        output := report.render options.format, log, files }

/-- The directory of a project: that of the file to check, or the directory to check. -/
def projectDirectory (workspace : Workspace) (path : Path) : Path :=
  if workspace.files.isFile workspace.directory path then path.parent else path

/-- Check files. -/
def check (workspace : Workspace) (grammar : Concrete.Grammar) (environment : Environment)
    (asked : Option Path) (options : CheckOptions) : Outcome :=
  let project := projectDirectory workspace options.path
  let (searching, source) :=
    ConfigSource.resolve workspace project asked environment.userDirectory
  let (loading, loaded) := loadConfig workspace source
  let outcome : Outcome := match loaded with
    | .error failure => { status := 1, failure := failure.render, files := workspace.files }
    | .ok config => checkWith workspace grammar options config
  { outcome with log := searching ++ loading ++ outcome.log }

/-- A text filled up with blanks to a width. -/
def padded (width : Nat) (text : String) : String :=
  text ++ Report.repeated (width - text.length) ' '

/-- The table of classifiers, with advice on choosing some of them. -/
def classifierTable : String :=
  "Available classifiers:\n\n"
    ++ padded 8 "Code" ++ " " ++ padded 20 "Name" ++ " Description\n"
    ++ Report.repeated 80 '-' ++ "\n"
    ++ String.join (allClassifiers.map fun classifier =>
      padded 8 classifier.code ++ " " ++ padded 20 classifier.name ++ " "
        ++ classifier.description ++ "\n")
    ++ "\nPresets:\n"
    ++ "  recommended    - LL001, LL002, LL003, LL004 (default)\n"
    ++ "  comments-only  - LL001 only (for gradual adoption)\n"
    ++ "\nUse --classifiers to filter, e.g.:\n"
    ++ "  longline check --classifiers long-comment,extract-variable\n"
    ++ "  longline check --classifiers LL001,LL004\n"

/-- The lines of the configuration file that a new project gets. -/
def initialConfigLines : List String :=
  ["# longline configuration",
   "",
   "# preset = \"recommended\"  # or \"comments-only\"",
   "",
   "[analyzer]",
   "# File or directory to analyze (default: current directory)",
   "# root = \"./course\"",
   "",
   "# Lines longer than this many characters get feedback",
   "max_line_length = 100",
   "",
   "# File extensions to scan",
   "extensions = [\"py\"]",
   "",
   "# Glob patterns to exclude from analysis",
   "exclude = [",
   "    \"**/.venv/**\",",
   "    \"**/__pycache__/**\",",
   "]",
   "",
   "# Give up on a file whose parse takes longer than this",
   "parse_timeout_ms = 10000",
   "",
   "# Classifier configurations",
   "# Each classifier can be disabled and has its own limits",
   "",
   "[classifiers.long-comment]",
   "enabled = true",
   "",
   "[classifiers.extract-variable]",
   "enabled = true",
   "max_operands = 4",
   "",
   "[classifiers.multi-assignment]",
   "enabled = true",
   "",
   "[classifiers.function-signature]",
   "enabled = true",
   "max_parameters = 4",
   "long_parameter_name = 25",
   "# line_length_limit = 100  # defaults to max_line_length"]

/-- The configuration file that a new project gets. -/
def initialConfig : String :=
  String.join (initialConfigLines.map (· ++ "\n"))

/-- What is printed when the configuration file was written. -/
def initialAdvice : String :=
  "Created longline.toml\n"
    ++ "\nNext steps:\n"
    ++ "  1. Edit longline.toml to configure classifiers\n"
    ++ "  2. Run: longline check\n"

/-- The configuration file of the project in the working directory. -/
def configFile : Path := ⟨"longline.toml"⟩

/-- Write the configuration file of a new project. One that is there already is overwritten only
by force. -/
def init (workspace : Workspace) (force : Bool) : Outcome :=
  let files := workspace.files
  if files.isPresent workspace.directory configFile && !force then
    let failure : Failure := ⟨s!"Configuration file already exists at {configFile.text}. "
      ++ "Use --force to overwrite.", []⟩
    { status := 1, failure := failure.render, files }
  else
    match files.write workspace.directory configFile initialConfig.toUTF8 with
    | .ok files => { output := initialAdvice, files }
    | .error error => { status := 1, failure := (⟨error.message, []⟩ : Failure).render, files }

/-- How the program is called. -/
def usage : String :=
  "Explains why Python lines are too long and how to shorten them\n\n"
    ++ "Usage: longline [OPTIONS] <COMMAND>\n\n"
    ++ "Commands:\n"
    ++ "  check             Scan files and report feedback for long lines\n"
    ++ "  list-classifiers  List available classifiers\n"
    ++ "  init              Initialize configuration file\n"
    ++ "  help              Print this message or the help of the given subcommand(s)\n"

/-- The name and version of the program. -/
def versionText : String := "longline 0.3.0\n"

/-- Carry out a request. -/
def perform (workspace : Workspace) (grammar : Concrete.Grammar) (environment : Environment)
    (request : Request) : Outcome :=
  match request.task with
  | .check options => check workspace grammar environment request.config options
  | .listClassifiers => { output := classifierTable, files := workspace.files }
  | .init force => init workspace force

/-- The least severe level of log entries that are shown. -/
def threshold (verbose : Bool) : Log.Level :=
  if verbose then .debug else .info

/-- Run the program with arguments. The log has the entries that are shown. -/
def run (workspace : Workspace) (grammar : Concrete.Grammar) (environment : Environment)
    (arguments : List String) : Outcome :=
  match readArguments environment.config arguments with
  | .error .help => { output := usage, files := workspace.files }
  | .error .version => { output := versionText, files := workspace.files }
  | .error .misuse => { status := 2, files := workspace.files }
  | .ok request =>
    let outcome := perform workspace grammar environment request
    { outcome with log := Log.shown (threshold request.verbose) outcome.log }

end LineCoach.Command
