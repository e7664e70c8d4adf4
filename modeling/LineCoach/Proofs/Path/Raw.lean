import LineCoach.Path.Raw
import LineCoach.Proofs.Path.Names
import LineCoach.Proofs.Text.Lossy

/-!
# Reading a path

A path can be read as a whole and then be cut into names, or it can be cut into names that are read
one by one. Both give the same names, since bytes are read on each side of a slash by themselves and
the parts that are no names are read from themselves only. A path that is given as text is read from
its bytes as it was given. Names that have no replacement in them are told by their bytes, so that
it makes no difference whether they are looked for before or after reading.
-/

namespace LineCoach

namespace RawPath

/-- A part without a slash is still one part when it is read. -/
theorem splitOnP_lossy {part : List UInt8} (h : ∀ byte ∈ part, decide (byte = 0x2F) = false) :
    (Text.lossy part).splitOnP (· = '/') = [Text.lossy part] := by
  refine Text.splitOnP_of_not_mem fun hslash => ?_
  exact absurd (h _ (Text.slash_mem_of_mem_lossy hslash)) (by decide)

/-- The parts of a path that is read are its parts, each of them read. -/
theorem parts_lossyText (path : RawPath) :
    Path.parts ⟨path.lossyText⟩ = path.parts.map fun part => String.ofList (Text.lossy part) := by
  obtain ⟨bytes⟩ := path
  simp only [Path.parts, lossyText, parts, String.toList_ofList]
  induction bytes using Text.cut_induction (· = (0x2F : UInt8)) with
  | last part hpart =>
    rw [List.splitOnP_eq_singleton hpart, splitOnP_lossy hpart, List.map_singleton,
      List.map_singleton]
  | more part slash rest hpart hslash ih =>
    obtain rfl : slash = 0x2F := of_decide_eq_true hslash
    rw [Text.lossy_slash, List.splitOnP_append_cons _ _ (by rfl),
      List.splitOnP_append_cons _ _ (by rfl), List.map_append, List.map_append, ih,
      List.splitOnP_eq_singleton hpart, splitOnP_lossy hpart, List.map_singleton,
      List.map_singleton]

/-- A part that is read stands for a name exactly if it is one. -/
theorem component?_lossy (part : List UInt8) :
    (Path.component? (String.ofList (Text.lossy part))).bind Path.Component.name? =
      if isName part then some (String.ofList (Text.lossy part)) else none := by
  have hread {text : List Char} (h : Text.replacement ∉ text) :
      String.ofList (Text.lossy part) = String.ofList text ↔ part = Text.encode text := by
    rw [String.ofList_inj, Text.lossy_eq_iff h]
  have hempty : String.ofList (Text.lossy part) = "" ↔ part = [] := hread (by decide)
  have hdot : String.ofList (Text.lossy part) = "." ↔ part = [0x2E] := hread (by decide)
  have hdots : String.ofList (Text.lossy part) = ".." ↔ part = [0x2E, 0x2E] := hread (by decide)
  simp only [Path.component?, isName, hempty, hdot, hdots]
  by_cases hidle : part = [] ∨ part = [0x2E]
  · rcases hidle with rfl | rfl <;> rfl
  · by_cases hparent : part = [0x2E, 0x2E]
    · subst hparent
      rfl
    · rw [not_or] at hidle
      simp [hidle.1, hidle.2, hparent, Path.Component.name?]

/-- The names of a path that is read are its names, each of them read. -/
theorem names_lossyText (path : RawPath) : Path.names ⟨path.lossyText⟩ = path.lossyNames := by
  rw [Path.names_eq, parts_lossyText, List.filterMap_filterMap, List.filterMap_map, lossyNames,
    names, ← List.filterMap_eq_map, List.filterMap_filter]
  exact List.filterMap_congr fun part _ => component?_lossy part

/-- The names of bytes with a slash in them are those before the slash and those behind it. -/
theorem names_slash (front back : List UInt8) :
    names ⟨front ++ 0x2F :: back⟩ = names ⟨front⟩ ++ names ⟨back⟩ := by
  rw [names, parts, List.splitOnP_append_cons _ _ (by rfl), List.filter_append]
  rfl

/-- The empty path has no names. -/
theorem names_empty : names ⟨[]⟩ = [] := by decide

/-- A path that starts at the root stands for itself. -/
theorem join_of_absolute (base : RawPath) {rest : RawPath} (h : rest.isAbsolute = true) :
    base.join rest = rest := by
  rw [join, h]
  rfl

/-- The names of a joined path are those of the path and those of what is joined to it. -/
theorem names_join (base : RawPath) {rest : RawPath} (h : rest.isAbsolute = false) :
    (base.join rest).names = base.names ++ rest.names := by
  obtain ⟨front⟩ := base
  obtain ⟨back⟩ := rest
  simp only [join, h, Bool.false_eq_true, if_false]
  split
  · next hclosed =>
    rw [Bool.or_eq_true, decide_eq_true_eq, decide_eq_true_eq] at hclosed
    rcases hclosed with hlast | rfl
    · obtain ⟨front, rfl⟩ := List.getLast?_eq_some_iff.1 hlast
      rw [List.append_assoc, List.singleton_append, names_slash, names_slash, names_empty,
        List.append_nil]
    · rw [List.nil_append, names_empty, List.nil_append]
  · exact names_slash front back

/-- The names of what is joined to a path are the last names of the joined path. -/
theorem suffix_names_join (base rest : RawPath) : rest.names <:+ (base.join rest).names := by
  cases h : rest.isAbsolute with
  | true => simp only [join_of_absolute _ h, List.suffix_rfl]
  | false =>
    rw [names_join _ h]
    exact List.suffix_append _ _

/-- Names without replacements are read as neighbours exactly if their bytes are neighbours. -/
theorem infix_lossyNames_iff {names : List String}
    (h : ∀ name ∈ names, Text.replacement ∉ name.toList) (path : RawPath) :
    names <:+: path.lossyNames ↔
      names.map (fun name => Text.encode name.toList) <:+: path.names := by
  constructor
  · intro hread
    obtain ⟨run, hrun, rfl⟩ := List.infix_map_iff.1 hread
    rw [List.map_map]
    have hencoded : ∀ name ∈ run,
        ((fun name => Text.encode name.toList) ∘ fun name => String.ofList (Text.lossy name)) name =
          name := by
      intro name hname
      have hclean := h _ (List.mem_map_of_mem hname)
      rw [String.toList_ofList] at hclean
      rw [Function.comp_apply, String.toList_ofList, Text.encode_lossy hclean]
    rwa [List.map_congr_left hencoded, List.map_id']
  · intro hbytes
    have hread := hbytes.map fun name => String.ofList (Text.lossy name)
    rw [List.map_map] at hread
    have hdecoded : ∀ name ∈ names,
        ((fun name => String.ofList (Text.lossy name)) ∘ fun name => Text.encode name.toList) name =
          name := by
      intro name _
      rw [Function.comp_apply, Text.lossy_encode, String.ofList_toList]
    rwa [List.map_congr_left hdecoded, List.map_id'] at hread

end RawPath

namespace Path

/-- A path is read from its bytes as it was given. -/
theorem lossyText_raw (path : Path) : path.raw.lossyText = path.text := by
  rw [RawPath.lossyText, raw, Text.lossy_encode, String.ofList_toList]

/-- The names of a path are read from its bytes. -/
theorem lossyNames_raw (path : Path) : path.raw.lossyNames = path.names := by
  rw [← RawPath.names_lossyText, lossyText_raw]

end Path

end LineCoach
