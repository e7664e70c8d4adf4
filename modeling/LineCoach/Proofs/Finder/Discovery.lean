import LineCoach.Finder.Discover
import LineCoach.Proofs.FileTree.Order

/-!
# What a scan of a directory finds

A finder takes the files below a directory from a listing and keeps some of them. What it finds is
told by the directory alone: the files that stand at some place of it, if their path has a wanted
extension and is not excluded. They come once each and in the order of paths, since leaving out
files changes neither.
-/

namespace LineCoach.Finder

/-- A path has a wanted extension if its extension is one of the finder's. -/
theorem hasExtension_iff (finder : Finder) (path : Path) :
    finder.hasExtension path = true ↔
      ∃ extension ∈ finder.extensions, path.extension? = some extension := by
  rw [hasExtension]
  split
  · next extension hextension => simp [hextension]
  · next hnone => simp [hnone]

/-- A selection has the files with a wanted extension that are not excluded. -/
theorem mem_select_iff (finder : Finder) (files : List Path) (path : Path) :
    path ∈ finder.select files ↔
      path ∈ files ∧ (∃ extension ∈ finder.extensions, path.extension? = some extension) ∧
        finder.excludes path = false := by
  rw [select, candidates, List.mem_filter, List.mem_filter, hasExtension_iff, Bool.not_eq_true',
    and_assoc]

/-- A selection keeps the order of the files. -/
theorem select_sublist (finder : Finder) (files : List Path) :
    (finder.select files).Sublist files :=
  List.filter_sublist.trans List.filter_sublist

/-- A scan of a directory selects from its listing. -/
theorem discover_directory (finder : Finder) {root : FileTree} {base start : Path}
    {entries : List (String × FileTree)} (h : root.linkStat base start = .ok (.directory entries)) :
    (finder.discover root base start).2 =
      .ok (finder.select (FileTree.listing start (.directory entries))) := by
  rw [discover, FileTree.files, h]

/-- A scan of a directory finds the files below it that have a wanted extension and are not
excluded, and nothing else. Each of them is found once, and they come in the order of paths. -/
theorem discover_finds_files_in_order (finder : Finder) (root : FileTree) (base start : Path)
    (entries : List (String × FileTree))
    (hstart : root.linkStat base start = .ok (.directory entries))
    (h : (FileTree.directory entries).WellFormed) :
    ∃ found, (finder.discover root base start).2 = .ok found ∧
      (∀ path, path ∈ found ↔
        (∃! place, (∃ content, (FileTree.directory entries).at? place = some (.file content)) ∧
          start.below place = path) ∧
        (∃ extension ∈ finder.extensions, path.extension? = some extension) ∧
        finder.excludes path = false) ∧
      found.Nodup ∧
      found.Pairwise fun path later => path.components < later.components := by
  have hordered := (FileTree.pairwise_lt_listing h start).sublist (finder.select_sublist _)
  refine ⟨_, finder.discover_directory hstart, fun path => ?_, ?_, hordered⟩
  · rw [mem_select_iff, FileTree.mem_listing_iff h]
    refine and_congr_left fun _ => ?_
    constructor
    · rintro ⟨place, content, hplace, hbelow⟩
      refine ⟨place, ⟨⟨content, hplace⟩, hbelow⟩, ?_⟩
      rintro other ⟨⟨content', hother⟩, hbelow'⟩
      exact Path.below_inj start (h.isName_of_at? hother) (h.isName_of_at? hplace)
        (hbelow'.trans hbelow.symm)
    · rintro ⟨place, ⟨⟨content, hplace⟩, hbelow⟩, -⟩
      exact ⟨place, content, hplace, hbelow⟩
  · exact hordered.imp fun hlt heq => hlt.ne (congrArg Path.components heq)

/-- A directory with files, directories and a link, whose names begin alike. -/
def likeNamed : List (String × FileTree) :=
  [("a.py", .file ⟨#[]⟩), ("link.py", .link ⟨"a.py"⟩),
    ("a", .directory [("c.txt", .file ⟨#[]⟩), ("b.py", .file ⟨#[]⟩)]),
    ("a-b", .directory [("d.py", .file ⟨#[]⟩)])]

theorem wellFormed_likeNamed : (FileTree.directory likeNamed).WellFormed := by
  refine .directory (by decide) (by decide) ?_
  simp only [likeNamed, List.forall_mem_cons, List.not_mem_nil, IsEmpty.forall_iff, implies_true,
    and_true]
  refine ⟨.file _, .link _, .directory (by decide) (by decide) ?_,
    .directory (by decide) (by decide) ?_⟩
  · simp only [List.forall_mem_cons, List.not_mem_nil, IsEmpty.forall_iff, implies_true, and_true]
    exact ⟨.file _, .file _⟩
  · simp only [List.forall_mem_singleton]
    exact .file _

/-- A scan of the directory finds the file that stands below `a`. -/
theorem discover_likeNamed :
    ∃ found,
      (discover ⟨["py"], [], []⟩ (.directory [("src", .directory likeNamed)]) ⟨"/"⟩ ⟨"src"⟩).2 =
        .ok found ∧
      ⟨"src/a/b.py"⟩ ∈ found ∧ found.Nodup ∧
      found.Pairwise fun path later => path.components < later.components := by
  obtain ⟨found, hfound, hmem, hnodup, hordered⟩ := discover_finds_files_in_order ⟨["py"], [], []⟩
    (.directory [("src", .directory likeNamed)]) ⟨"/"⟩ ⟨"src"⟩ likeNamed rfl wellFormed_likeNamed
  have hbelow : Path.below ⟨"src"⟩ ["a", "b.py"] = ⟨"src/a/b.py"⟩ := by decide
  refine ⟨found, hfound, ?_, hnodup, hordered⟩
  refine (hmem _).2
    ⟨⟨["a", "b.py"], ⟨⟨_, rfl⟩, hbelow⟩, ?_⟩, ⟨"py", by decide, by decide⟩, by decide⟩
  rintro place ⟨⟨content, hplace⟩, hpath⟩
  exact Path.below_inj _ (wellFormed_likeNamed.isName_of_at? hplace) (by decide)
    (hpath.trans hbelow.symm)

end LineCoach.Finder
