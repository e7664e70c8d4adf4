import LineCoach.Path.Basic

/-!
# File trees

A file system as a value: files, directories and symbolic links below one root. A path is followed
name by name from the root or from a working directory, links are followed as they are met, and
what can go wrong on the way has the name that the operating system gives to it.

Names of entries and targets of links are Unicode text, so that every name and every extension is
read as what it is. A file system can also have names whose bytes are no text, which are read with
replacements or not at all; entries with such names are left out.
-/

namespace LineCoach

/-- What an operating system answers instead of a file. -/
inductive OsError where
  | notFound
  | notADirectory
  | isADirectory
  | nameTooLong
  | tooManyLinks
  /-- The path has a character that ends a name for the operating system, which is not asked. -/
  | endMark
deriving DecidableEq, Repr

namespace OsError

/-- The number of the error, if the operating system was asked. -/
def code? : OsError → Option Nat
  | notFound => some 2
  | notADirectory => some 20
  | isADirectory => some 21
  | nameTooLong => some 36
  | tooManyLinks => some 40
  | endMark => none

/-- The error in words, without its number. -/
def description : OsError → String
  | notFound => "No such file or directory"
  | notADirectory => "Not a directory"
  | isADirectory => "Is a directory"
  | nameTooLong => "File name too long"
  | tooManyLinks => "Too many levels of symbolic links"
  | endMark => "file name contained an unexpected NUL byte"

/-- The error in words. -/
def message (error : OsError) : String :=
  match error.code? with
  | some code => s!"{error.description} (os error {code})"
  | none => error.description

end OsError

/-- A file, a directory or a link. The names of entries are Unicode text. -/
inductive FileTree where
  | file (content : ByteArray)
  | directory (entries : List (String × FileTree))
  | link (target : Path)
deriving Inhabited

namespace FileTree

/-- A directory without entries. -/
def empty : FileTree := .directory []

/-- The entry with this name in a directory. -/
def child? (tree : FileTree) (name : String) : Option FileTree :=
  match tree with
  | directory entries => entries.lookup name
  | _ => none

/-- The entry at a place, which is a list of names from the root; links are not followed. -/
def at? (tree : FileTree) (place : List String) : Option FileTree :=
  place.foldlM child? tree

/-- Put an entry under a name, in place of what the name stood for. -/
def setEntry (entries : List (String × FileTree)) (name : String) (entry : FileTree) :
    List (String × FileTree) :=
  match entries with
  | [] => [(name, entry)]
  | (key, old) :: rest =>
    if key = name then (key, entry) :: rest else (key, old) :: setEntry rest name entry

/-- Put an entry at a place. Directories on the way are made; what stands there and is no
directory gives way. -/
def insert (tree : FileTree) (place : List String) (entry : FileTree) : FileTree :=
  match place with
  | [] => entry
  | name :: rest =>
    let entries := match tree with
      | directory entries => entries
      | _ => []
    let old := (entries.lookup name).getD empty
    .directory (setEntry entries name (old.insert rest entry))

/-- One step along a path. -/
inductive Step where
  /-- Stay, which only a directory allows. -/
  | stay
  | up
  | down (name : String)
  /-- Stay at the end of a path with a slash there, which says that a directory is meant. -/
  | slash
deriving DecidableEq, Repr

/-- The steps of a path. -/
def steps (path : Path) : List Step :=
  let parts := path.parts
  let steps := parts.filterMap fun part =>
    if part = "" then none
    else if part = "." then some .stay
    else if part = ".." then some .up
    else some (.down part)
  if parts.getLast? = some "" then steps ++ [.slash] else steps

/-- What a path is followed for. -/
inductive Purpose where
  /-- To look at what stands there, which may be a link. -/
  | inspect
  /-- To use what stands there, links followed. -/
  | use
  /-- To write a file there, links followed, so that a directory cannot be meant. -/
  | write
deriving DecidableEq, Repr

/-- Where following a path ends. -/
inductive Target where
  /-- At an entry, which stands at this place. -/
  | existing (place : List String) (entry : FileTree)
  /-- At a name that a directory does not have. -/
  | vacant (place : List String) (name : String)

/-- How many bytes a name may have. -/
def maxNameBytes : Nat := 255

/-- How many bytes a path may have. -/
def maxPathBytes : Nat := 4095

/-- Follow steps from the directory at `place`. A link at the end is followed unless it is to be
inspected; `enter` goes on behind a link. -/
def follow (root : FileTree) (purpose : Purpose)
    (enter : List String → List Step → Except OsError Target) :
    (place : List String) → List Step → Except OsError Target
  | place, [] =>
    match root.at? place with
    | some entry => .ok (.existing place entry)
    | none => .error .notFound
  | place, step :: rest =>
    match root.at? place with
    | some (.directory entries) =>
      match step with
      | .stay => follow root purpose enter place rest
      | .slash => follow root purpose enter place rest
      | .up => follow root purpose enter place.dropLast rest
      | .down name =>
        if purpose = .write ∧ rest = [.slash] then .error .isADirectory
        else if maxNameBytes < name.utf8ByteSize then .error .nameTooLong
        else
          match entries.lookup name with
          | none => if rest = [] then .ok (.vacant place name) else .error .notFound
          | some (.link target) =>
            if rest = [] ∧ purpose = .inspect then .ok (.existing (place ++ [name]) (.link target))
            else if target.text = "" then .error .notFound
            else enter (if target.isAbsolute then [] else place) (steps target ++ rest)
          | some _ => follow root purpose enter (place ++ [name]) rest
    | some _ => .error .notADirectory
    | none => .error .notFound

/-- Follow steps through at most `links` links. -/
def walk (root : FileTree) (purpose : Purpose) :
    (links : Nat) → List String → List Step → Except OsError Target
  | 0 => follow root purpose fun _ _ => .error .tooManyLinks
  | links + 1 => follow root purpose (walk root purpose links)

/-- How many links a path may lead through. -/
def maxLinks : Nat := 40

/-- The place of a directory that is given by an absolute path without links. -/
def placeOf (path : Path) : List String :=
  path.names

/-- Follow a path from the working directory `base`. The empty path leads nowhere, and what is
wrong with the text of a path is found before its first name is looked up. -/
def resolve (root : FileTree) (purpose : Purpose) (base path : Path) : Except OsError Target :=
  if path.text.toList.contains '\x00' then .error .endMark
  else if path.text = "" then .error .notFound
  else if maxPathBytes < path.text.utf8ByteSize then .error .nameTooLong
  else walk root purpose maxLinks (if path.isAbsolute then [] else placeOf base) (steps path)

/-- The entry at the end of a path. -/
def entry (root : FileTree) (purpose : Purpose) (base path : Path) : Except OsError FileTree :=
  match root.resolve purpose base path with
  | .ok (.existing _ entry) => .ok entry
  | .ok (.vacant _ _) => .error .notFound
  | .error e => .error e

/-- The entry that a path names, links followed. -/
def stat (root : FileTree) (base path : Path) : Except OsError FileTree :=
  root.entry .use base path

/-- The entry that a path names, which may be a link. -/
def linkStat (root : FileTree) (base path : Path) : Except OsError FileTree :=
  root.entry .inspect base path

/-- Whether the path names a file, links followed. -/
def isFile (root : FileTree) (base path : Path) : Bool :=
  match root.stat base path with
  | .ok (.file _) => true
  | _ => false

/-- Whether the path names anything, links followed. -/
def isPresent (root : FileTree) (base path : Path) : Bool :=
  match root.stat base path with
  | .ok _ => true
  | .error _ => false

/-- The bytes of a file. -/
def read (root : FileTree) (base path : Path) : Except OsError ByteArray :=
  match root.stat base path with
  | .ok (.file content) => .ok content
  | .ok _ => .error .isADirectory
  | .error e => .error e

/-- Write a file, which is made when its directory has none of that name. -/
def write (root : FileTree) (base path : Path) (content : ByteArray) : Except OsError FileTree :=
  match root.resolve .write base path with
  | .ok (.existing place (.file _)) => .ok (root.insert place (.file content))
  | .ok (.existing _ _) => .error .isADirectory
  | .ok (.vacant place name) => .ok (root.insert (place ++ [name]) (.file content))
  | .error e => .error e

/-- Why a file could not be read or listed. -/
inductive Failure where
  /-- The operating system refused. -/
  | system (error : OsError)
  /-- The operating system refused while a directory was walked. -/
  | walking (path : Path) (error : OsError)
  /-- The bytes of the file are not UTF-8. -/
  | notText
deriving DecidableEq, Repr

namespace Failure

/-- The failure in words. -/
def message : Failure → String
  | system error => error.message
  | walking path error => s!"IO error for operation on {path.text}: {error.message}"
  | notText => "stream did not contain valid UTF-8"

/-- What lies behind the failure, in words. -/
def causes : Failure → List String
  | walking _ error => [error.message]
  | _ => []

end Failure

/-- The text of a file. -/
def readText (root : FileTree) (base path : Path) : Except Failure String :=
  match root.read base path with
  | .error e => .error (.system e)
  | .ok content =>
    match String.fromUTF8? content with
    | some text => .ok text
    | none => .error .notText

end FileTree

end LineCoach
