import LineCoach.Proofs.FileTree.Listing
import LineCoach.Proofs.Path.Order

/-!
# What a listing has, and in which order

The files below a directory are found by their places, which are lists of names. A listing has the
path of each file and nothing else. It sorts each directory by itself, and this puts all paths in
the order of their components: what is below an entry keeps together, whatever the names of its
neighbours begin with.
-/

namespace LineCoach.FileTree

open LineCoach.Path (IsName)

/-- What stands at a place is found by way of the first name. -/
theorem at?_cons (tree : FileTree) (name : String) (place : List String) :
    tree.at? (name :: place) = (tree.child? name).bind (·.at? place) := rfl

/-- An entry of a directory is found by its name. -/
theorem lookup_eq_some_iff_mem {entries : List (String × FileTree)}
    (distinct : entries.Pairwise fun entry later => entry.1 ≠ later.1) {name : String}
    {entry : FileTree} : entries.lookup name = some entry ↔ (name, entry) ∈ entries := by
  constructor
  · intro h
    obtain ⟨before, after, rfl, -⟩ := List.lookup_eq_some_iff.1 h
    simp
  · intro h
    obtain ⟨before, after, rfl⟩ := List.append_of_mem h
    refine List.lookup_eq_some_iff.2 ⟨before, after, rfl, fun other hother => ?_⟩
    have hname := (List.pairwise_append.1 distinct).2.2 other hother _ List.mem_cons_self
    exact bne_iff_ne.2 hname.symm

/-- Places of a well-formed tree are made of names. -/
theorem WellFormed.isName_of_at? {tree entry : FileTree} {place : List String} (h : tree.WellFormed)
    (hplace : tree.at? place = some entry) : ∀ name ∈ place, IsName name := by
  induction place generalizing tree with
  | nil => nofun
  | cons name place ih =>
    rw [at?_cons] at hplace
    obtain ⟨child, hchild, hrest⟩ := Option.bind_eq_some_iff.1 hplace
    refine List.forall_mem_cons.2 ⟨?_, ih (h.of_child? hchild) hrest⟩
    cases h with
    | file content => cases hchild
    | link target => cases hchild
    | directory names distinct below =>
      exact names _ ((lookup_eq_some_iff_mem distinct).1 hchild)

/-- The listing of a directory is that of its entries. -/
theorem mem_listing_directory (start path : Path) (entries : List (String × FileTree)) :
    path ∈ listing start (.directory entries) ↔
      ∃ entry ∈ entries, path ∈ listing (start.join ⟨entry.1⟩) entry.2 := by
  simp only [listing, List.mem_flatMap, List.mem_mergeSort, listings_eq_map, List.mem_map,
    exists_exists_and_eq_and]

/-- A listing has the paths of the files of the tree, and no others. -/
theorem mem_listing_iff {tree : FileTree} (h : tree.WellFormed) (start path : Path) :
    path ∈ listing start tree ↔
      ∃ place content, tree.at? place = some (.file content) ∧ start.below place = path := by
  induction h generalizing start with
  | file content =>
    rw [listing, List.mem_singleton]
    constructor
    · rintro rfl
      exact ⟨[], content, rfl, rfl⟩
    · rintro ⟨place, other, hplace, rfl⟩
      cases place with
      | nil => rfl
      | cons name place => cases hplace
  | link target =>
    rw [listing]
    constructor
    · nofun
    · rintro ⟨place, content, hplace, -⟩
      cases place <;> cases hplace
  | @directory entries names distinct below ih =>
    rw [mem_listing_directory]
    constructor
    · rintro ⟨⟨name, entry⟩, hentry, hpath⟩
      obtain ⟨place, content, hplace, rfl⟩ := (ih _ hentry _).1 hpath
      refine ⟨name :: place, content, ?_, Path.below_cons _ _ _⟩
      rw [at?_cons, child?, (lookup_eq_some_iff_mem distinct).2 hentry]
      exact hplace
    · rintro ⟨place, content, hplace, rfl⟩
      cases place with
      | nil => cases hplace
      | cons name place =>
        rw [at?_cons] at hplace
        obtain ⟨entry, hchild, hrest⟩ := Option.bind_eq_some_iff.1 hplace
        have hentry := (lookup_eq_some_iff_mem distinct).1 hchild
        exact ⟨(name, entry), hentry, (ih _ hentry _).2 ⟨place, content, hrest, rfl⟩⟩

/-- The entries of a directory are listed in the order of their names. -/
theorem pairwise_lt_sorted_listings (start : Path) {entries : List (String × FileTree)}
    (distinct : entries.Pairwise fun entry later => entry.1 ≠ later.1) :
    ((listings start entries).mergeSort fun a b => a.1 ≤ b.1).Pairwise fun a b => a.1 < b.1 := by
  have hsorted : ((listings start entries).mergeSort fun a b => a.1 ≤ b.1).Pairwise
      fun a b => decide (a.1 ≤ b.1) = true := by
    refine List.pairwise_mergeSort (fun a b c hab hbc => ?_) (fun a b => ?_) _
    · exact decide_eq_true ((of_decide_eq_true hab).trans (of_decide_eq_true hbc))
    · simpa using le_total a.1 b.1
  have hdistinct : ((listings start entries).mergeSort fun a b => a.1 ≤ b.1).Pairwise
      fun a b => a.1 ≠ b.1 := by
    refine ((List.mergeSort_perm _ _).pairwise_iff Ne.symm).2 ?_
    rwa [listings_eq_map, List.pairwise_map]
  exact hsorted.imp₂ (fun a b hle hne => lt_of_le_of_ne (of_decide_eq_true hle) hne) hdistinct

/-- A listing is in the order of paths, and no path is in it twice. -/
theorem pairwise_lt_listing {tree : FileTree} (h : tree.WellFormed) (start : Path) :
    (listing start tree).Pairwise fun path later => path.components < later.components := by
  induction h generalizing start with
  | file content => exact List.pairwise_singleton _ _
  | link target => exact List.Pairwise.nil
  | @directory entries names distinct below ih =>
    rw [listing, List.pairwise_flatMap]
    have hentry : ∀ group ∈ (listings start entries).mergeSort fun a b => a.1 ≤ b.1,
        ∃ entry ∈ entries, (entry.1, listing (start.join ⟨entry.1⟩) entry.2) = group := by
      intro group hgroup
      rw [List.mem_mergeSort, listings_eq_map] at hgroup
      exact List.mem_map.1 hgroup
    constructor
    · intro group hgroup
      obtain ⟨entry, hmem, rfl⟩ := hentry group hgroup
      exact ih entry hmem _
    · refine (pairwise_lt_sorted_listings start distinct).imp_of_mem ?_
      intro group later hgroup hlater hlt path hpath other hother
      obtain ⟨entry, hmem, rfl⟩ := hentry group hgroup
      obtain ⟨entry', hmem', rfl⟩ := hentry later hlater
      have hbelow := below entry hmem
      have hbelow' := below entry' hmem'
      -- the two paths part at the names of their entries
      obtain ⟨place, content, hplace, rfl⟩ := (mem_listing_iff hbelow _ _).1 hpath
      obtain ⟨place', content', hplace', rfl⟩ := (mem_listing_iff hbelow' _ _).1 hother
      exact Path.below_lt_below start hlt
        (List.forall_mem_cons.2 ⟨names entry hmem, hbelow.isName_of_at? hplace⟩)
        (List.forall_mem_cons.2 ⟨names entry' hmem', hbelow'.isName_of_at? hplace'⟩)

end LineCoach.FileTree
