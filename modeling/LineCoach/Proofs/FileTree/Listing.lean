import LineCoach.FileTree.Listing
import LineCoach.Proofs.Path.Join
import LineCoach.Proofs.Path.Map

/-!
# The files of a listing are different places

In a directory every name stands once, and it is one part of a path. So the paths below one entry
all begin with the components of the entry, and those below another entry do not: no two paths of a
listing name the same place. A listing is also different places when it is seen from a base, as a
scan sees it.
-/

namespace LineCoach.FileTree

open LineCoach.Path (IsName)

/-- A file tree as an operating system has it: the entries of each directory have names that paths
can be made of, and no two of them have the same name. -/
inductive WellFormed : FileTree → Prop
  | file (content : ByteArray) : WellFormed (.file content)
  | link (target : Path) : WellFormed (.link target)
  | directory {entries : List (String × FileTree)}
      (names : ∀ entry ∈ entries, IsName entry.1)
      (distinct : entries.Pairwise fun entry later => entry.1 ≠ later.1)
      (below : ∀ entry ∈ entries, WellFormed entry.2) :
      WellFormed (.directory entries)

/-- An entry of a well-formed directory is well-formed. -/
theorem WellFormed.of_child? {tree entry : FileTree} {name : String} (h : tree.WellFormed)
    (hchild : tree.child? name = some entry) : entry.WellFormed := by
  cases h with
  | file content => simp [child?] at hchild
  | link target => simp [child?] at hchild
  | directory names distinct below =>
    obtain ⟨before, after, rfl, -⟩ := List.lookup_eq_some_iff.1 hchild
    exact below (name, entry) (by simp)

/-- What stands at a place of a well-formed tree is well-formed. -/
theorem WellFormed.of_at? {tree entry : FileTree} {place : List String} (h : tree.WellFormed)
    (hplace : tree.at? place = some entry) : entry.WellFormed := by
  induction place generalizing tree with
  | nil =>
    obtain rfl : tree = entry := Option.some.inj hplace
    exact h
  | cons name rest ih =>
    rw [at?, List.foldlM_cons] at hplace
    obtain ⟨child, hchild, hrest⟩ := Option.bind_eq_some_iff.1 hplace
    exact ih (h.of_child? hchild) hrest

/-- What stands one name further is an entry of what stands before it. -/
theorem at?_append_singleton (tree : FileTree) (place : List String) (name : String) :
    tree.at? (place ++ [name]) = (tree.at? place).bind (·.child? name) := by
  rw [at?, List.foldlM_append, at?]
  cases place.foldlM child? tree with
  | none => rfl
  | some entry => exact bind_pure (entry.child? name)

/-- An end of a way through the tree that is there stands where the way says. -/
def Target.Stands (root : FileTree) : Target → Prop
  | .existing place entry => root.at? place = some entry
  | .vacant _ _ => True

/-- Following steps ends at what stands there, if going on behind links does. -/
theorem stands_of_follow {root : FileTree} {purpose : Purpose}
    {enter : List String → List Step → Except OsError Target}
    (henter : ∀ {from' steps target}, enter from' steps = .ok target → target.Stands root)
    {place : List String} {steps : List Step} {target : Target}
    (h : follow root purpose enter place steps = .ok target) : target.Stands root := by
  induction steps generalizing place with
  | nil =>
    rw [follow] at h
    split at h
    · next entry hentry =>
      cases h
      exact hentry
    · cases h
  | cons step rest ih =>
    rw [follow] at h
    split at h
    · next entries hplace =>
      cases step with
      | stay => exact ih h
      | slash => exact ih h
      | up => exact ih h
      | down name =>
        simp only at h
        split at h
        · cases h
        split at h
        · cases h
        split at h
        · split at h
          · cases h
            trivial
          · cases h
        · next link hname =>
          split at h
          · cases h
            rw [Target.Stands, at?_append_singleton, hplace]
            exact hname
          · split at h
            · cases h
            · exact henter h
        · exact ih h
    · cases h
    · cases h

/-- Following steps through links ends at what stands there. -/
theorem stands_of_walk {root : FileTree} {purpose : Purpose} {links : Nat} {place : List String}
    {steps : List Step} {target : Target} (h : walk root purpose links place steps = .ok target) :
    target.Stands root := by
  induction links generalizing place steps target with
  | zero => exact stands_of_follow (fun hnone => by cases hnone) h
  | succ links ih => exact stands_of_follow ih h

/-- What a path names in a well-formed tree is well-formed. -/
theorem WellFormed.of_entry {root found : FileTree} {purpose : Purpose} {base path : Path}
    (h : root.WellFormed) (hfound : root.entry purpose base path = .ok found) :
    found.WellFormed := by
  rw [entry] at hfound
  split at hfound
  · next place entry hresolve =>
    cases hfound
    rw [resolve] at hresolve
    split_ifs at hresolve
    · exact h.of_at? (stands_of_walk hresolve)
    · exact h.of_at? (stands_of_walk hresolve)
  · cases hfound
  · cases hfound

/-- A path that names something has some text. -/
theorem text_ne_empty_of_entry {root found : FileTree} {purpose : Purpose} {base path : Path}
    (hfound : root.entry purpose base path = .ok found) : path.text ≠ "" := by
  intro hempty
  have hnull : path.text.toList.contains '\x00' = false := by rw [hempty]; rfl
  rw [entry, resolve, hnull, if_neg Bool.false_ne_true, if_pos hempty] at hfound
  cases hfound

/-- The files of a directory, entry by entry. -/
theorem listings_eq_map (path : Path) (entries : List (String × FileTree)) :
    listings path entries =
      entries.map fun entry => (entry.1, listing (path.join ⟨entry.1⟩) entry.2) := by
  induction entries with
  | nil => rfl
  | cons entry rest ih =>
    obtain ⟨name, entry⟩ := entry
    rw [listings, ih, List.map_cons]

/-- The files of a directory whose entries are in order already. -/
theorem listing_of_ordered (path : Path) {entries : List (String × FileTree)}
    (h : entries.Pairwise fun entry later => entry.1 ≤ later.1) :
    listing path (.directory entries) =
      entries.flatMap fun entry => listing (path.join ⟨entry.1⟩) entry.2 := by
  have hsorted : (listings path entries).Pairwise fun a b => decide (a.1 ≤ b.1) := by
    rw [listings_eq_map, List.pairwise_map]
    exact h.imp fun hle => decide_eq_true hle
  rw [listing, List.mergeSort_of_pairwise hsorted, listings_eq_map, List.flatMap_map]

variable {start path : Path}

mutual

/-- The paths of a listing start at the root if the path that it starts from does. -/
theorem isAbsolute_of_mem_listing {start : Path} (hstart : start.isAbsolute = true)
    (tree : FileTree) (hpath : path ∈ listing start tree) : path.isAbsolute = true := by
  cases tree with
  | file content =>
    obtain rfl : path = start := List.mem_singleton.1 hpath
    exact hstart
  | link target => cases hpath
  | directory entries =>
    rw [listing, List.mem_flatMap] at hpath
    obtain ⟨group, hgroup, hmem⟩ := hpath
    rw [List.mem_mergeSort] at hgroup
    exact isAbsolute_of_mem_listings hstart entries hgroup hmem

/-- So do the paths of each entry of a directory. -/
theorem isAbsolute_of_mem_listings {start : Path} (hstart : start.isAbsolute = true)
    (entries : List (String × FileTree)) {group : String × List Path}
    (hgroup : group ∈ listings start entries) (hpath : path ∈ group.2) :
    path.isAbsolute = true := by
  cases entries with
  | nil => cases hgroup
  | cons entry rest =>
    obtain ⟨name, entry⟩ := entry
    rw [listings, List.mem_cons] at hgroup
    rcases hgroup with rfl | hgroup
    · exact isAbsolute_of_mem_listing (Path.isAbsolute_join hstart _) entry hpath
    · exact isAbsolute_of_mem_listings hstart rest hgroup hpath

end

/-- A path of a listing begins with the components of the path that the listing starts from. -/
theorem components_of_mem_listing (base : Path) {tree : FileTree} (h : tree.WellFormed)
    (hstart : start.text ≠ "") (hpath : path ∈ listing start tree) :
    (base.join start).components <+: (base.join path).components := by
  induction h generalizing start with
  | file content =>
    obtain rfl : path = start := List.mem_singleton.1 hpath
    exact List.prefix_rfl
  | link target => cases hpath
  | @directory entries names distinct below ih =>
    rw [listing, List.mem_flatMap] at hpath
    obtain ⟨group, hgroup, hmem⟩ := hpath
    rw [List.mem_mergeSort, listings_eq_map] at hgroup
    obtain ⟨entry, hentry, rfl⟩ := List.mem_map.1 hgroup
    have hbelow := ih entry hentry (Path.text_join_ne_empty hstart _) hmem
    rw [← Path.join_join _ _ hstart, Path.components_join _ (names entry hentry)] at hbelow
    exact (List.prefix_append _ _).trans hbelow

/-- Seen from any base, no two paths of a listing name the same place. -/
theorem pairwise_listing (base : Path) {tree : FileTree} (h : tree.WellFormed)
    (hstart : start.text ≠ "") :
    (listing start tree).Pairwise fun path later => ¬ (base.join path).Same (base.join later) := by
  induction h generalizing start with
  | file content => exact List.pairwise_singleton _ _
  | link target => exact List.Pairwise.nil
  | @directory entries names distinct below ih =>
    let apart (group later : String × List Path) : Prop :=
      ∀ path ∈ group.2, ∀ other ∈ later.2, ¬ (base.join path).Same (base.join other)
    have hsymm : ∀ {group later}, apart group later → apart later group :=
      fun happart path hpath other hother hsame => happart other hother path hpath hsame.symm
    have hsorted := List.mergeSort_perm (listings start entries) fun a b => a.1 ≤ b.1
    rw [listing, List.pairwise_flatMap]
    refine ⟨?_, (hsorted.pairwise_iff hsymm).2 ?_⟩
    · intro group hgroup
      rw [List.mem_mergeSort, listings_eq_map] at hgroup
      obtain ⟨entry, hentry, rfl⟩ := List.mem_map.1 hgroup
      exact ih entry hentry (Path.text_join_ne_empty hstart _)
    · rw [listings_eq_map, List.pairwise_map]
      refine distinct.imp_of_mem ?_
      intro entry later hentry hlater hname path hpath other hother hsame
      -- both paths have the directory's components and then the name of their own entry
      have hfirst := components_of_mem_listing base (below entry hentry)
        (Path.text_join_ne_empty hstart _) hpath
      have hsecond := components_of_mem_listing base (below later hlater)
        (Path.text_join_ne_empty hstart _) hother
      rw [← Path.join_join _ _ hstart, Path.components_join _ (names entry hentry), hsame] at hfirst
      rw [← Path.join_join _ _ hstart, Path.components_join _ (names later hlater)] at hsecond
      have hequal := List.prefix_of_prefix_length_le hfirst hsecond (by simp)
      have hcomponents := hequal.eq_of_length (by simp)
      simp only [List.append_cancel_left_eq, List.cons.injEq, and_true,
        Path.Component.normal.injEq] at hcomponents
      exact hname hcomponents

/-- The files at and below a path of a well-formed tree are different places, seen from any base. -/
theorem pairwise_files {root : FileTree} (h : root.WellFormed) {directory : Path}
    {found : List Path} (hfound : root.files directory start = .ok found) (base : Path) :
    found.Pairwise fun path later => ¬ (base.join path).Same (base.join later) := by
  rw [files] at hfound
  split at hfound
  · cases hfound
  · split at hfound
    · cases hfound
    · next entries hstat =>
      cases hfound
      exact pairwise_listing base (h.of_entry hstat) (text_ne_empty_of_entry hstat)
    · cases hfound
      exact List.Pairwise.nil
  · next entry _ hstat =>
    cases hfound
    exact pairwise_listing base (h.of_entry hstat) (text_ne_empty_of_entry hstat)

/-- The files at and below a path that starts at the root have paths that do. -/
theorem isAbsolute_of_mem_files {root : FileTree} {directory : Path} {found : List Path}
    (hstart : start.isAbsolute = true) (hfound : root.files directory start = .ok found)
    (hpath : path ∈ found) : path.isAbsolute = true := by
  rw [files] at hfound
  split at hfound
  · cases hfound
  · split at hfound
    · cases hfound
    · cases hfound
      exact isAbsolute_of_mem_listing hstart _ hpath
    · cases hfound
      cases hpath
  · cases hfound
    exact isAbsolute_of_mem_listing hstart _ hpath

end LineCoach.FileTree
