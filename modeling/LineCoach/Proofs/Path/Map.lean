import Mathlib.Data.List.Basic
import Mathlib.Data.List.Induction
import LineCoach.Path.Map

/-!
# Path maps that are filled item by item

A list of items is put into a path map one by one, each under its own path. The map that comes out
has one entry for each place that the paths name, in the order in which the places first appear and
in the spelling seen first, and the value there comes from the items of that place alone. The
invariant of the filling is the whole list of entries, so that look-ups and keys are read off it.
-/

namespace LineCoach

namespace Path

variable {p q r : Path}

@[refl]
theorem Same.refl (p : Path) : p.Same p := rfl

theorem Same.symm (h : p.Same q) : q.Same p := Eq.symm h

theorem Same.trans (h : p.Same q) (h' : q.Same r) : p.Same r := Eq.trans h h'

/-- Spellings of one place can stand for each other. -/
theorem Same.congr_right (h : p.Same q) : r.Same p ↔ r.Same q :=
  ⟨fun h' => h'.trans h, fun h' => h'.trans h.symm⟩

/-- Of the paths that name one place only the first, in the order in which they stand. -/
def firstSpellings : List Path → List Path
  | [] => []
  | path :: rest => path :: (firstSpellings rest).filter fun later => ¬ path.Same later

/-- First spellings name different places. -/
theorem pairwise_firstSpellings (paths : List Path) :
    (firstSpellings paths).Pairwise fun path later => ¬ path.Same later := by
  induction paths with
  | nil => exact .nil
  | cons path rest ih =>
    refine .cons ?_ (ih.filter _)
    intro later hlater
    simpa using (List.mem_filter.1 hlater).2

/-- A place is found among the first spellings in the spelling that comes first. -/
theorem find?_firstSpellings (paths : List Path) (place : Path) :
    (firstSpellings paths).find? (fun path => path.Same place) =
      paths.find? fun path => path.Same place := by
  induction paths with
  | nil => rfl
  | cons path rest ih =>
    rw [firstSpellings, List.find?_cons, List.find?_cons, List.find?_filter, ← ih]
    by_cases hsame : path.Same place
    · simp [hsame]
    · have hother (later : Path) :
          (¬ path.Same later ∧ later.Same place) ↔ later.Same place := by
        refine ⟨And.right, fun hlater => ⟨fun hpath => hsame (hpath.trans hlater), hlater⟩⟩
      simp [hsame, hother]

/-- The first spellings name the places that the paths name. -/
theorem exists_mem_firstSpellings (paths : List Path) (place : Path) :
    (∃ path ∈ firstSpellings paths, path.Same place) ↔ ∃ path ∈ paths, path.Same place := by
  have hfound := congrArg Option.isSome (find?_firstSpellings paths place)
  rw [Bool.eq_iff_iff, List.find?_isSome, List.find?_isSome] at hfound
  simpa only [decide_eq_true_eq] using hfound

/-- A path at the end is a first spelling unless its place was named before. -/
theorem firstSpellings_append_singleton (paths : List Path) (last : Path) :
    firstSpellings (paths ++ [last]) =
      if ∃ path ∈ paths, path.Same last then firstSpellings paths
      else firstSpellings paths ++ [last] := by
  induction paths with
  | nil => rfl
  | cons path rest ih =>
    rw [List.cons_append, firstSpellings, ih, firstSpellings]
    by_cases hrest : ∃ later ∈ rest, later.Same last
    · rw [if_pos hrest, if_pos (hrest.imp fun later h => ⟨List.mem_cons_of_mem _ h.1, h.2⟩)]
    · rw [if_neg hrest, List.filter_append]
      by_cases hpath : path.Same last
      · rw [if_pos ⟨path, List.mem_cons_self, hpath⟩]
        simp [hpath]
      · rw [if_neg (by simpa [hpath] using hrest)]
        simp [hpath]

/-- First spellings are some of the paths. -/
theorem mem_of_mem_firstSpellings {paths : List Path} {path : Path}
    (h : path ∈ firstSpellings paths) : path ∈ paths := by
  induction paths with
  | nil => exact h
  | cons first rest ih =>
    rcases List.mem_cons.1 h with rfl | hrest
    · exact List.mem_cons_self
    · exact List.mem_cons_of_mem _ (ih (List.mem_filter.1 hrest).1)

/-- Paths to different places have their first spellings one after the other. -/
theorem firstSpellings_append {first second : List Path}
    (h : ∀ path ∈ first, ∀ other ∈ second, ¬ path.Same other) :
    firstSpellings (first ++ second) = firstSpellings first ++ firstSpellings second := by
  induction first with
  | nil => rfl
  | cons path rest ih =>
    obtain ⟨hpath, hrest⟩ := List.forall_mem_cons.1 h
    have hkept : (firstSpellings second).filter (fun later => ¬ path.Same later) =
        firstSpellings second := by
      apply List.filter_eq_self.2
      intro other hother
      exact decide_eq_true (hpath other (mem_of_mem_firstSpellings hother))
    rw [List.cons_append, firstSpellings, ih hrest, List.filter_append, hkept]
    rfl

/-- Paths to one place have the first of them as their only first spelling. -/
theorem firstSpellings_of_same {path : Path} {rest : List Path}
    (h : ∀ other ∈ rest, path.Same other) : firstSpellings (path :: rest) = [path] := by
  rw [firstSpellings, List.filter_eq_nil_iff.2]
  intro other hother
  simpa using h other (mem_of_mem_firstSpellings hother)

end Path

namespace PathMap

variable {ι α : Type}

/-- A new path adds an entry at the end. -/
theorem updateEntries_of_new {path : Path} {entries : List (Path × α)} (initial : α)
    (change : α → α) (h : ∀ entry ∈ entries, ¬ entry.1.Same path) :
    updateEntries path initial change entries = entries ++ [(path, change initial)] := by
  induction entries with
  | nil => rfl
  | cons entry rest ih =>
    obtain ⟨key, value⟩ := entry
    obtain ⟨hkey, hrest⟩ := List.forall_mem_cons.1 h
    rw [updateEntries, if_neg hkey, ih hrest, List.cons_append]

/-- A known path changes the one entry under its place. -/
theorem updateEntries_of_known {path : Path} {keys : List Path} (value : Path → α) (initial : α)
    (change : α → α) (hkeys : keys.Pairwise fun key later => ¬ key.Same later)
    (h : ∃ key ∈ keys, key.Same path) :
    updateEntries path initial change (keys.map fun key => (key, value key)) =
      keys.map fun key => (key, if key.Same path then change (value key) else value key) := by
  induction keys with
  | nil => simp at h
  | cons key rest ih =>
    obtain ⟨hkey, hrest⟩ := List.pairwise_cons.1 hkeys
    rw [List.map_cons, List.map_cons, updateEntries]
    by_cases hsame : key.Same path
    · -- no later key names the place, so that the rest stays as it is
      have hlater : ∀ later ∈ rest, ¬ later.Same path := fun later hmem hpath =>
        hkey later hmem (hsame.trans hpath.symm)
      rw [if_pos hsame, if_pos hsame]
      congr 1
      apply List.map_congr_left
      intro later hmem
      rw [if_neg (hlater later hmem)]
    · have hfound : ∃ later ∈ rest, later.Same path := by simpa [hsame] using h
      rw [if_neg hsame, if_neg hsame, ih hrest hfound]

/-- The map that items fill one by one: each changes the value under its path. -/
def gather (key : ι → Path) (initial : α) (change : α → ι → α) (items : List ι) : PathMap α :=
  items.foldl (fun map item => map.update (key item) initial (change · item)) empty

variable (key : ι → Path) (initial : α) (change : α → ι → α)

/-- The items of a place, in order. -/
def itemsOf (items : List ι) (path : Path) : List ι :=
  items.filter fun item => (key item).Same path

/-- The items of a place do not depend on its spelling. -/
theorem itemsOf_congr (items : List ι) {path other : Path} (h : path.Same other) :
    itemsOf key items path = itemsOf key items other := by
  simp only [itemsOf, h.congr_right]

/-- A place has no items when no item has a path to it. -/
theorem itemsOf_eq_nil_iff (items : List ι) (path : Path) :
    itemsOf key items path = [] ↔ ¬ ∃ item ∈ items, (key item).Same path := by
  simp [itemsOf]

theorem itemsOf_append (first second : List ι) (path : Path) :
    itemsOf key (first ++ second) path = itemsOf key first path ++ itemsOf key second path :=
  List.filter_append ..

/-- An item at the end is one of its own place only. -/
theorem itemsOf_append_singleton (items : List ι) (last : ι) (path : Path) :
    itemsOf key (items ++ [last]) path =
      itemsOf key items path ++ if (key last).Same path then [last] else [] := by
  rw [itemsOf_append]
  simp only [itemsOf, List.filter_cons, List.filter_nil, decide_eq_true_eq]

/-- The entries of a map that was filled: the first spelling of each place, with what the items of
the place make of the initial value. -/
theorem entries_gather (items : List ι) :
    (gather key initial change items).entries =
      (Path.firstSpellings (items.map key)).map fun path =>
        (path, (itemsOf key items path).foldl change initial) := by
  induction items using List.reverseRecOn with
  | nil => rfl
  | append_singleton items last ih =>
    have hstep : (gather key initial change (items ++ [last])).entries =
        updateEntries (key last) initial (change · last) (gather key initial change items).entries := by
      rw [gather, List.foldl_append]
      rfl
    have hkeys := Path.pairwise_firstSpellings (items.map key)
    have hplaces := Path.exists_mem_firstSpellings (items.map key) (key last)
    rw [hstep, ih, List.map_append, List.map_singleton, Path.firstSpellings_append_singleton]
    by_cases hknown : ∃ path ∈ items.map key, path.Same (key last)
    · rw [if_pos hknown, updateEntries_of_known _ _ _ hkeys (hplaces.2 hknown)]
      apply List.map_congr_left
      intro path _
      rw [itemsOf_append_singleton, List.foldl_append]
      by_cases hsame : path.Same (key last)
      · rw [if_pos hsame, if_pos hsame.symm]
        rfl
      · rw [if_neg hsame, if_neg fun h => hsame h.symm]
        rfl
    · have hnew : ∀ path ∈ Path.firstSpellings (items.map key), ¬ path.Same (key last) :=
        fun path hmem hsame => hknown (hplaces.1 ⟨path, hmem, hsame⟩)
      have hnone : itemsOf key items (key last) = [] := by
        rw [itemsOf_eq_nil_iff]
        simpa using hknown
      rw [if_neg hknown, updateEntries_of_new _ _ (by simpa using hnew), List.map_append,
        List.map_singleton, itemsOf_append_singleton, hnone, if_pos (Path.Same.refl _)]
      congr 1
      apply List.map_congr_left
      intro path hmem
      rw [itemsOf_append_singleton, if_neg fun h => hnew path hmem h.symm, List.append_nil]

/-- The keys of a map that was filled are the first spellings of the items' paths. -/
theorem keys_gather (items : List ι) :
    (gather key initial change items).keys = Path.firstSpellings (items.map key) := by
  rw [keys, entries_gather, List.map_map]
  exact List.map_id _

/-- What is found under a path is made from the items of its place, if there are any. -/
theorem get?_gather (items : List ι) (path : Path) :
    (gather key initial change items).get? path =
      if ∃ item ∈ items, (key item).Same path then
        some ((itemsOf key items path).foldl change initial)
      else none := by
  have hkeys := Path.find?_firstSpellings (items.map key) path
  rw [get?, entries_gather, List.find?_map]
  change (((Path.firstSpellings (items.map key)).find? fun other => other.Same path).map _).map _ = _
  rw [hkeys]
  cases hfound : (items.map key).find? fun other => other.Same path with
  | none =>
    have hnone : ¬ ∃ item ∈ items, (key item).Same path := by
      simpa using List.find?_eq_none.1 hfound
    rw [if_neg hnone]
    rfl
  | some first =>
    have hsame : first.Same path := by simpa using List.find?_some hfound
    obtain ⟨item, hitem, rfl⟩ := List.mem_map.1 (List.mem_of_find?_eq_some hfound)
    rw [if_pos ⟨item, hitem, hsame⟩, ← itemsOf_congr key items hsame]
    rfl

/-- The items of all places, place by place. -/
def regrouped (items : List ι) : List ι :=
  (Path.firstSpellings (items.map key)).flatMap (itemsOf key items)

/-- Items of different places are grouped apart. -/
theorem regrouped_append {first second : List ι}
    (h : ∀ item ∈ first, ∀ other ∈ second, ¬ (key item).Same (key other)) :
    regrouped key (first ++ second) = regrouped key first ++ regrouped key second := by
  have hpaths : ∀ path ∈ first.map key, ∀ other ∈ second.map key, ¬ path.Same other := by
    simpa using h
  have hfirst : ∀ path ∈ first.map key, itemsOf key (first ++ second) path = itemsOf key first path := by
    intro path hpath
    have hnone : itemsOf key second path = [] := by
      rw [itemsOf_eq_nil_iff]
      rintro ⟨item, hitem, hsame⟩
      exact hpaths path hpath (key item) (List.mem_map_of_mem hitem) hsame.symm
    rw [itemsOf_append, hnone, List.append_nil]
  have hsecond : ∀ path ∈ second.map key,
      itemsOf key (first ++ second) path = itemsOf key second path := by
    intro path hpath
    have hnone : itemsOf key first path = [] := by
      rw [itemsOf_eq_nil_iff]
      rintro ⟨item, hitem, hsame⟩
      exact hpaths (key item) (List.mem_map_of_mem hitem) path hpath hsame
    rw [itemsOf_append, hnone, List.nil_append]
  rw [regrouped, List.map_append, Path.firstSpellings_append hpaths, List.flatMap_append]
  congr 1
  · exact List.flatMap_congr fun path hpath => hfirst path (Path.mem_of_mem_firstSpellings hpath)
  · exact List.flatMap_congr fun path hpath => hsecond path (Path.mem_of_mem_firstSpellings hpath)

/-- Items of one place are one group. -/
theorem regrouped_of_same {items : List ι} {path : Path}
    (h : ∀ item ∈ items, (key item).Same path) : regrouped key items = items := by
  cases items with
  | nil => rfl
  | cons item rest =>
    obtain ⟨hitem, hrest⟩ := List.forall_mem_cons.1 h
    have hsame : ∀ other ∈ rest.map key, (key item).Same other := by
      intro other hother
      obtain ⟨later, hlater, rfl⟩ := List.mem_map.1 hother
      exact hitem.trans (hrest later hlater).symm
    rw [regrouped, List.map_cons, Path.firstSpellings_of_same hsame, List.flatMap_singleton, itemsOf,
      List.filter_eq_self]
    intro other hother
    exact decide_eq_true ((h other hother).trans hitem.symm)

/-- Items that come block by block, each block with its own place, are already grouped. -/
theorem regrouped_flatMap {β : Type} (blocks : List β) (place : β → Path) (content : β → List ι)
    (hplace : ∀ block, ∀ item ∈ content block, (key item).Same (place block))
    (hblocks : blocks.Pairwise fun block later => ¬ (place block).Same (place later)) :
    regrouped key (blocks.flatMap content) = blocks.flatMap content := by
  induction blocks with
  | nil => rfl
  | cons block rest ih =>
    obtain ⟨hblock, hrest⟩ := List.pairwise_cons.1 hblocks
    have hapart : ∀ item ∈ content block, ∀ other ∈ rest.flatMap content,
        ¬ (key item).Same (key other) := by
      intro item hitem other hother hsame
      obtain ⟨later, hlater, hmem⟩ := List.mem_flatMap.1 hother
      have hplaces := (hplace block item hitem).symm.trans (hsame.trans (hplace later other hmem))
      exact hblock later hlater hplaces
    rw [List.flatMap_cons, regrouped_append key hapart, ih hrest,
      regrouped_of_same key (hplace block)]

end PathMap

end LineCoach
