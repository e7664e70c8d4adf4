import LineCoach.FileTree.Basic

/-!
# Listing a file tree

The files below a directory, depth first, the entries of each directory ordered by name. Links are
neither listed nor followed, except that a walk may begin at a link to a directory.
-/

namespace LineCoach.FileTree

mutual

/-- The files of an entry whose path is `path`. -/
def listing (path : Path) : FileTree → List Path
  | file _ => [path]
  | link _ => []
  | directory entries =>
    ((listings path entries).mergeSort fun a b => a.1 ≤ b.1).flatMap Prod.snd

/-- The files of each entry of a directory whose path is `path`, by name. -/
def listings (path : Path) : List (String × FileTree) → List (String × List Path)
  | [] => []
  | (name, entry) :: rest => (name, listing (path.join ⟨name⟩) entry) :: listings path rest

end

/-- The files at and below the path `start`. -/
def files (root : FileTree) (base start : Path) : Except Failure (List Path) :=
  match root.linkStat base start with
  | .error e => .error (.walking start e)
  | .ok (.link _) =>
    match root.stat base start with
    | .error e => .error (.walking start e)
    | .ok (.directory entries) => .ok (listing start (.directory entries))
    | .ok _ => .ok []
  | .ok entry => .ok (listing start entry)

end LineCoach.FileTree
