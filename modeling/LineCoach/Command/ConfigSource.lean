import LineCoach.Analyzer.Basic

/-!
# Where the configuration comes from

A file that is asked for by name comes first, then one of two files in the project's directory,
then a file in the user's directory. With none of these the defaults hold.
-/

namespace LineCoach.Command

/-- Where a configuration was found. -/
inductive ConfigSource where
  /-- Asked for by name; it need not exist. -/
  | explicit (path : Path)
  /-- In the project's directory. -/
  | project (path : Path)
  /-- In the user's directory. -/
  | global (path : Path)
  /-- Nowhere. -/
  | default
deriving DecidableEq, Repr

namespace ConfigSource

/-- The file, unless the defaults hold. -/
def path? : ConfigSource → Option Path
  | explicit path => some path
  | project path => some path
  | global path => some path
  | default => none

/-- Names of configuration files in a project, the first one preferred. -/
def projectFiles : List String :=
  ["longline.toml", ".longline.toml"]

/-- Name of the configuration file in the user's directory. -/
def userFile : String := "config.toml"

/-- The places to search, in order. -/
def candidates (project : Path) (user : Option Path) : List ConfigSource :=
  projectFiles.map (fun name => .project (project.join ⟨name⟩))
    ++ (user.map fun directory => ConfigSource.global (directory.join ⟨userFile⟩)).toList

/-- Whether the place has a file. -/
def isThere (workspace : Workspace) (source : ConfigSource) : Bool :=
  match source.path? with
  | some path => workspace.files.isFile workspace.directory path
  | none => false

/-- Search the project's directory and the user's directory, with what is logged. -/
def search (workspace : Workspace) (project : Path) (user : Option Path) :
    List Log.Entry × ConfigSource :=
  match (candidates project user).find? (isThere workspace) with
  | none => ([], .default)
  | some source =>
    (source.path?.toList.map fun path => ⟨.debug, s!"Config file: {path.text}"⟩, source)

/-- Find the configuration of a project. -/
def resolve (workspace : Workspace) (project : Path) (asked user : Option Path) :
    List Log.Entry × ConfigSource :=
  match asked with
  | some path => ([], .explicit path)
  | none => search workspace project user

end ConfigSource

end LineCoach.Command
