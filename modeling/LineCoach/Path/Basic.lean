import LineCoach.Text.Blank

/-!
# Paths

A path keeps the text it was written with. Two spellings name the same place when they have
the same components: repeated slashes, a slash at the end and dots between slashes make no
difference, while a leading dot and every double dot do.

A path and its names are Unicode text here, so that reading them as text changes nothing and cannot
fail. A file system can also have paths whose bytes are no text. These are paths in bytes only, and
reading them puts U+FFFD in place of what is no character.
-/

namespace LineCoach

/-- A path in the spelling it was given, which is Unicode text. -/
structure Path where
  text : String
deriving DecidableEq, Repr, Inhabited

namespace Path

/-- What a path is made of. -/
inductive Component where
  /-- The leading slash of an absolute path. -/
  | root
  /-- The leading dot of a relative path. -/
  | current
  /-- A double dot. -/
  | parent
  | normal (name : String)
deriving DecidableEq, Repr

namespace Component

/-- The name, when the component is an ordinary one. -/
def name? : Component → Option String
  | normal name => some name
  | _ => none

end Component

/-- The parts between slashes, empty ones included. -/
def parts (path : Path) : List String :=
  (path.text.toList.splitOnP (· = '/')).map String.ofList

/-- The component that a part stands for; empty parts and dots stand for none. -/
def component? (part : String) : Option Component :=
  if part = "" || part = "." then none
  else if part = ".." then some .parent
  else some (.normal part)

/-- Whether the path starts at the root. -/
def isAbsolute (path : Path) : Bool :=
  path.text.toList.head? = some '/'

/-- The components of the path. -/
def components (path : Path) : List Component :=
  match path.parts with
  | [] => []
  | first :: rest =>
    let body := (first :: rest).filterMap component?
    if path.isAbsolute then .root :: body
    else if first = "." then .current :: body
    else body

/-- Whether two spellings name the same place. -/
def Same (p q : Path) : Prop :=
  p.components = q.components

instance (p q : Path) : Decidable (Same p q) :=
  inferInstanceAs (Decidable (p.components = q.components))

/-- The ordinary names of the path, in order. -/
def names (path : Path) : List String :=
  path.components.filterMap Component.name?

/-- The last component, when it is an ordinary name. -/
def fileName? (path : Path) : Option String :=
  path.components.getLast?.bind Component.name?

/-- What follows the last dot of the file name. A name that has no dot after its first
character has no extension. -/
def extension? (path : Path) : Option String :=
  path.fileName?.bind fun name =>
    let reversed := name.toList.reverse
    match reversed.dropWhile (· ≠ '.') with
    | [] => none
    | [_] => none
    | _ :: _ :: _ => some (String.ofList (reversed.takeWhile (· ≠ '.')).reverse)

/-- The path `rest` seen from `base`. An absolute `rest` stands for itself. -/
def join (base rest : Path) : Path :=
  if rest.isAbsolute then rest
  else if base.text.toList.getLast? = some '/' || base.text = "" then ⟨base.text ++ rest.text⟩
  else ⟨base.text ++ "/" ++ rest.text⟩

/-- Whether a part between slashes makes no difference to what a path names. -/
def isIdle (part : String) : Bool :=
  part = "" || part = "."

/-- Drop idle parts at the end of reversed parts, but never the first part of the path. -/
def dropIdle : List String → List String
  | part :: next :: more => if isIdle part then dropIdle (next :: more) else part :: next :: more
  | short => short

/-- The path without its last component. -/
def parent (path : Path) : Path :=
  let kept := dropIdle ((dropIdle path.parts.reverse).drop 1)
  match kept.reverse with
  | [] => ⟨""⟩
  | [first] => if path.isAbsolute then ⟨"/"⟩ else ⟨first⟩
  | parts => ⟨String.intercalate "/" parts⟩

/-- The form of a path for display: of more than three names only the last three are shown. -/
def short (path : Path) : String :=
  let names := path.names
  if 3 < names.length then
    ".../" ++ String.intercalate "/" (names.drop (names.length - 3))
  else path.text

end Path

end LineCoach
