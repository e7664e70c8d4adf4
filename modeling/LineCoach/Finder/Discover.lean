import LineCoach.FileTree.Listing
import LineCoach.Finder.Basic
import LineCoach.Log

/-!
# Finding the files of a scan

Of the files below a directory those are kept that belong to the scan. Files that only an
exclusion keeps out are logged.
-/

namespace LineCoach.Finder

/-- The files with a wanted extension. -/
def candidates (finder : Finder) (files : List Path) : List Path :=
  files.filter finder.hasExtension

/-- The files that belong to the scan. -/
def select (finder : Finder) (files : List Path) : List Path :=
  (finder.candidates files).filter fun path => !finder.excludes path

/-- What is logged about a selection. -/
def notes (finder : Finder) (files : List Path) : List Log.Entry :=
  ((finder.candidates files).filter finder.excludes).map
      (fun path => ⟨.debug, s!"Excluding: {path.text}"⟩)
    ++ [⟨.info, s!"Found {(finder.select files).length} files to analyze"⟩]

/-- The files of a scan of `start`, and what is logged about them. -/
def discover (finder : Finder) (root : FileTree) (base start : Path) :
    List Log.Entry × Except FileTree.Failure (List Path) :=
  match root.files base start with
  | .error e => ([], .error e)
  | .ok files => (finder.notes files, .ok (finder.select files))

end LineCoach.Finder
