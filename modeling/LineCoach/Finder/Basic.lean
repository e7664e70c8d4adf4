import LineCoach.Path.Raw
import LineCoach.Pattern.Segments

/-!
# Which files belong to a scan

A file belongs to a scan when its extension is wanted and no exclusion applies to its path. An
exclusion applies when its pattern matches the whole path, or when its segments match neighbouring
names of the path. So `build` excludes everything below a directory of that name, wherever it is.

Patterns are matched with texts. The bytes of a path are read for this, as a whole and name by name,
so that the replacement of what is no character can be matched, too.
-/

namespace LineCoach

/-- Which files belong to a scan. -/
structure Finder where
  /-- Wanted extensions, without the dot. -/
  extensions : List String
  /-- Patterns for whole paths. -/
  exclude : List Pattern
  /-- Patterns for neighbouring names; none is empty. -/
  excludeRuns : List (List Pattern)
deriving DecidableEq, Repr

namespace Finder

/-- A finder for extensions and texts of exclusions. The first text that is no pattern is an
error. -/
def new (extensions exclude : List String) : Except Pattern.Error Finder := do
  let whole ← exclude.mapM Pattern.parse
  let runs ← exclude.mapM Pattern.segments
  return ⟨extensions, whole, runs.filter (fun segments => !segments.isEmpty)⟩

/-- Whether the path has a wanted extension. -/
def hasExtension (finder : Finder) (path : Path) : Bool :=
  match path.extension? with
  | some extension => finder.extensions.contains extension
  | none => false

/-- Whether an exclusion applies to the path as it is read from its bytes. -/
def excludesRaw (finder : Finder) (path : RawPath) : Bool :=
  finder.exclude.any (·.matchesText path.lossyText)
    || finder.excludeRuns.any (Pattern.matchesRun · path.lossyNames)

/-- Whether an exclusion applies to the path. -/
def excludes (finder : Finder) (path : Path) : Bool :=
  finder.excludesRaw path.raw

end Finder

end LineCoach
