import LineCoach.Proofs.Path.Names

/-!
# Paths shortened for display

Of a path with more than three names the short form shows the last three behind an ellipsis. The
ellipsis is a name like any other, so the short form is a path of four names, and these are found
again when it is read: no name has a slash in it, and none is a dot or a double dot. That is why a
short form is not shortened any further, although it has more than three names itself.
-/

namespace LineCoach.Path

/-- A path that starts at the root has nothing before its first slash. -/
theorem head?_parts_of_isAbsolute {path : Path} (h : path.isAbsolute = true) :
    path.parts.head? = some "" := by
  rw [isAbsolute, decide_eq_true_eq] at h
  obtain ⟨rest, htext⟩ := List.head?_eq_some_iff.1 h
  have hpath : path = ⟨String.ofList ([] ++ '/' :: rest)⟩ := by
    rw [List.nil_append, ← htext, String.ofList_toList]
  rw [hpath, parts_slash]
  rfl

/-- A path whose first part is a name has no component before those of its parts. -/
theorem opening_eq_nil {path : Path} {name : String} (hname : IsName name)
    (h : path.parts.head? = some name) : path.opening = [] := by
  have hrelative : path.isAbsolute = false := by
    cases habsolute : path.isAbsolute with
    | false => rfl
    | true =>
      rw [head?_parts_of_isAbsolute habsolute, Option.some.injEq] at h
      exact absurd h.symm hname.2.1
  rw [opening, hrelative, h]
  simp [hname.2.2.1]

/-- Names that are joined by slashes are the components of what comes out. -/
theorem components_intercalate {names : List String} (hne : names ≠ [])
    (h : ∀ name ∈ names, IsName name) :
    components ⟨String.intercalate "/" names⟩ = names.map Component.normal := by
  have htext : String.intercalate "/" names =
      String.ofList (['/'].intercalate (names.map String.toList)) := by
    rw [← String.toList_inj]
    simp
  have hparts := parts_intercalate hne fun name hname => (h name hname).1
  obtain ⟨first, rest, rfl⟩ := List.exists_cons_of_ne_nil hne
  have hhead := congrArg List.head? hparts
  rw [List.head?_cons] at hhead
  rw [htext, components_eq, hparts, filterMap_component? h,
    opening_eq_nil (h first List.mem_cons_self) hhead, List.nil_append]

section Long

variable {path : Path} {last : List String}

/-- The short form of a path with more than three names joins the ellipsis and the last three. -/
theorem short_eq_intercalate (hlong : 3 < path.names.length) (hlast : last <:+ path.names)
    (hthree : last.length = 3) : path.short = String.intercalate "/" ("..." :: last) := by
  have hdrop : path.names.drop (path.names.length - 3) = last := by
    rw [← hthree]
    exact (List.suffix_iff_eq_drop.1 hlast).symm
  have hne : last ≠ [] := by
    rintro rfl
    cases hthree
  simp only [short]
  rw [if_pos hlong, hdrop, String.intercalate_cons_of_ne_nil hne]
  rfl

/-- The ellipsis and the last three names are the components of the short form. -/
theorem components_short (hlong : 3 < path.names.length) (hlast : last <:+ path.names)
    (hthree : last.length = 3) :
    components ⟨path.short⟩ = ("..." :: last).map Component.normal := by
  rw [short_eq_intercalate hlong hlast hthree]
  refine components_intercalate (List.cons_ne_nil _ _) ?_
  rw [List.forall_mem_cons]
  refine ⟨by decide, ?_⟩
  intro name hname
  exact isName_of_mem_names (hlast.subset hname)

/-- The names of the short form are the ellipsis and the last three names. -/
theorem names_short (hlong : 3 < path.names.length) (hlast : last <:+ path.names)
    (hthree : last.length = 3) : names ⟨path.short⟩ = "..." :: last := by
  rw [names, components_short hlong hlast hthree, List.filterMap_map]
  exact List.filterMap_some

end Long

/-- The short form of a path is its own short form. Where a path has more than three names, the last
three of them say what its short form is, however the path is spelled, and the components of the
short form are the ellipsis and these three. -/
theorem short_reads_back (path : Path) :
    short ⟨path.short⟩ = path.short ∧
      (3 < path.names.length →
        ∃ last, last <:+ path.names ∧ last.length = 3 ∧
          components ⟨path.short⟩ = ("..." :: last).map Component.normal ∧
          ∀ other : Path, 3 < other.names.length → last <:+ other.names →
            other.short = path.short) := by
  by_cases hlong : 3 < path.names.length
  · have hlast : path.names.drop (path.names.length - 3) <:+ path.names := List.drop_suffix _ _
    have hthree : (path.names.drop (path.names.length - 3)).length = 3 := by
      rw [List.length_drop]
      omega
    have hshort := short_eq_intercalate hlong hlast hthree
    have hnames := names_short hlong hlast hthree
    refine ⟨?_, fun _ => ⟨_, hlast, hthree, components_short hlong hlast hthree, ?_⟩⟩
    · -- the short form has four names, of which the last three are the same
      rw [short_eq_intercalate _ _ hthree, hshort]
      · rw [hnames, List.length_cons, hthree]
        decide
      · rw [hnames]
        exact List.suffix_cons _ _
    · intro other hother hsuffix
      rw [short_eq_intercalate hother hsuffix hthree, hshort]
  · have hshort : path.short = path.text := by
      simp only [short]
      rw [if_neg hlong]
    exact ⟨by rw [hshort, hshort], fun h => absurd h hlong⟩

/-- A path from the root with a doubled slash, a dot and a double dot in it. -/
theorem short_reads_back_sample :
    3 < (names ⟨"/srv//ann/./course/../week1/box.py"⟩).length ∧
      short ⟨"/srv//ann/./course/../week1/box.py"⟩ = ".../course/week1/box.py" ∧
      short ⟨".../course/week1/box.py"⟩ = ".../course/week1/box.py" ∧
      components ⟨".../course/week1/box.py"⟩ =
        [.normal "...", .normal "course", .normal "week1", .normal "box.py"] := by
  have hlong : 3 < (names ⟨"/srv//ann/./course/../week1/box.py"⟩).length := by decide
  have hshort : short ⟨"/srv//ann/./course/../week1/box.py"⟩ = ".../course/week1/box.py" := by
    decide
  obtain ⟨hagain, hreads⟩ := short_reads_back ⟨"/srv//ann/./course/../week1/box.py"⟩
  obtain ⟨last, hlast, hthree, hcomponents, -⟩ := hreads hlong
  obtain rfl : last = ["course", "week1", "box.py"] := by
    rw [List.suffix_iff_eq_drop.1 hlast, hthree]
    decide
  rw [hshort] at hagain hcomponents
  exact ⟨hlong, hshort, hagain, hcomponents⟩

end LineCoach.Path
