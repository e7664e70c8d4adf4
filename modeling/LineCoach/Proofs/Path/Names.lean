import LineCoach.Proofs.Path.Join
import LineCoach.Proofs.Text.Slashes

/-!
# The names of a path

The ordinary names of a path come from its parts alone: neither the root nor a leading dot has one.
So the names of a text with a slash in it are those before the slash and those behind it, and the
names of a joined path are those of the one path and those of the other. Names that are joined by
slashes are found again, whatever comes before and behind them.
-/

namespace LineCoach.Path

/-- The names of a path are those of its parts. -/
theorem names_eq (path : Path) :
    path.names = (path.parts.filterMap component?).filterMap Component.name? := by
  have hopening : path.opening.filterMap Component.name? = [] := by
    rw [opening]
    split
    · rfl
    · split <;> rfl
  rw [names, components_eq, List.filterMap_append, hopening, List.nil_append]

/-- The names of a text are those before a slash and those behind it. -/
theorem names_slash (front back : List Char) :
    names ⟨String.ofList (front ++ '/' :: back)⟩ =
      names ⟨String.ofList front⟩ ++ names ⟨String.ofList back⟩ := by
  simp only [names_eq, parts_slash, List.filterMap_append]

/-- The empty path has no names. -/
theorem names_empty : names ⟨String.ofList []⟩ = [] := by decide

/-- The names of a joined path are those of the path and those of what is joined to it. -/
theorem names_join (base : Path) {rest : Path} (h : rest.isAbsolute = false) :
    (base.join rest).names = base.names ++ rest.names := by
  obtain ⟨text⟩ := base
  obtain ⟨back⟩ := rest
  rw [join_of_relative _ h, separator]
  by_cases hlast : text.toList.getLast? = some '/'
  · obtain ⟨front, hfront⟩ := List.getLast?_eq_some_iff.1 hlast
    have htext : text = String.ofList (front ++ ['/']) := by rw [← hfront, String.ofList_toList]
    have hjoined : text ++ "" ++ back = String.ofList (front ++ '/' :: back.toList) := by
      rw [htext, ← String.toList_inj]
      simp
    simp only [hlast, decide_true, Bool.true_or, if_true, hjoined]
    rw [htext, names_slash, names_slash, names_empty, List.append_nil, String.ofList_toList]
  · by_cases hempty : text = ""
    · subst hempty
      have hnone : names ⟨""⟩ = [] := names_empty
      simp only [decide_true, Bool.or_true, if_true, String.append_empty, String.empty_append,
        hnone, List.nil_append]
    · have hjoined : text ++ "/" ++ back = String.ofList (text.toList ++ '/' :: back.toList) := by
        rw [← String.toList_inj]
        simp
      simp only [hlast, hempty, decide_false, Bool.or_self, Bool.false_eq_true, if_false, hjoined,
        names_slash, String.ofList_toList]

/-- The names of what is joined to a path are the last names of the joined path. -/
theorem suffix_names_join (base rest : Path) : rest.names <:+ (base.join rest).names := by
  cases h : rest.isAbsolute with
  | true => simp only [join_of_absolute _ h, List.suffix_rfl]
  | false =>
    rw [names_join _ h]
    exact List.suffix_append _ _

/-- The names of a path can be names of entries. -/
theorem isName_of_mem_names {path : Path} {name : String} (h : name ∈ path.names) :
    IsName name := by
  rw [names_eq, List.filterMap_filterMap] at h
  obtain ⟨part, hpart, hnamed⟩ := List.mem_filterMap.1 h
  obtain ⟨component, hcomponent, hname⟩ := Option.bind_eq_some_iff.1 hnamed
  have hslash : '/' ∉ part.toList := by
    obtain ⟨chars, hchars, rfl⟩ := List.mem_map.1 hpart
    rw [String.toList_ofList]
    exact Text.slash_not_mem_of_mem_splitOnP hchars
  rw [component?] at hcomponent
  split at hcomponent
  · cases hcomponent
  · next hidle =>
    rw [Bool.or_eq_true, decide_eq_true_eq, decide_eq_true_eq, not_or] at hidle
    split at hcomponent
    · cases hcomponent
      cases hname
    · next hparent =>
      cases hcomponent
      cases hname
      exact ⟨hslash, hidle.1, hidle.2, hparent⟩

/-- Texts without slashes that are joined by slashes are the parts of what comes out. -/
theorem parts_intercalate {names : List String} (hne : names ≠ [])
    (h : ∀ name ∈ names, '/' ∉ name.toList) :
    parts ⟨String.ofList (['/'].intercalate (names.map String.toList))⟩ = names := by
  have hsplit : (['/'].intercalate (names.map String.toList)).splitOn '/' =
      names.map String.toList := by
    apply List.splitOn_intercalate
    · intro chars hchars
      obtain ⟨name, hname, rfl⟩ := List.mem_map.1 hchars
      exact h name hname
    · rwa [Ne, List.map_eq_nil_iff]
  rw [parts, String.toList_ofList]
  change ((['/'].intercalate (names.map String.toList)).splitOn '/').map String.ofList = names
  rw [hsplit, List.map_map]
  exact List.map_id'' (fun name => String.ofList_toList) names

/-- Names stand for components of their own. -/
theorem filterMap_component? {names : List String} (h : ∀ name ∈ names, IsName name) :
    names.filterMap component? = names.map Component.normal := by
  rw [← List.filterMap_eq_map]
  exact List.filterMap_congr fun name hname => component?_name (h name hname)

/-- Names that are joined by slashes are the names of what comes out. -/
theorem names_intercalate {names : List String} (hne : names ≠ [])
    (h : ∀ name ∈ names, IsName name) :
    Path.names ⟨String.ofList (['/'].intercalate (names.map String.toList))⟩ = names := by
  rw [names_eq, parts_intercalate hne fun name hname => (h name hname).1, filterMap_component? h,
    List.filterMap_map]
  exact List.filterMap_some

/-- Names that are joined by slashes stand together in a path that has them between other parts. -/
theorem infix_names_of_parts {names : List String} (hne : names ≠ [])
    (h : ∀ name ∈ names, IsName name) {front back : List Char}
    (hfront : front = [] ∨ front.getLast? = some '/') (hback : back = [] ∨ back.head? = some '/') :
    names <:+: Path.names
      ⟨String.ofList (front ++ ['/'].intercalate (names.map String.toList) ++ back)⟩ := by
  let joined := ['/'].intercalate (names.map String.toList)
  have hjoined : Path.names ⟨String.ofList joined⟩ = names := names_intercalate hne h
  have hrest : ∃ after, Path.names ⟨String.ofList (joined ++ back)⟩ = names ++ after := by
    rcases hback with rfl | hback
    · exact ⟨[], by rw [List.append_nil, hjoined, List.append_nil]⟩
    · obtain ⟨more, rfl⟩ := List.head?_eq_some_iff.1 hback
      exact ⟨_, by rw [names_slash, hjoined]⟩
  obtain ⟨after, hafter⟩ := hrest
  rcases hfront with rfl | hfront
  · exact ⟨[], after, by rw [List.nil_append, List.nil_append]; exact hafter.symm⟩
  · obtain ⟨before, rfl⟩ := List.getLast?_eq_some_iff.1 hfront
    refine ⟨Path.names ⟨String.ofList before⟩, after, ?_⟩
    rw [List.append_assoc, List.append_assoc, List.append_assoc, List.singleton_append, names_slash,
      hafter]

end LineCoach.Path
