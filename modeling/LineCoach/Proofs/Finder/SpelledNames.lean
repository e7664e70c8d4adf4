import LineCoach.Proofs.Finder.Exclusion
import LineCoach.Proofs.Pattern.Literal

/-!
# Excluding by name

Most exclusions spell out a name, or a few names one below the other. The finder holds them against
a path in two ways, as a whole and name by name, and the whole pattern finds nothing that the names
do not find: such an exclusion applies to a path if it has the names as neighbours, whether or not
the ends of the exclusion are left open. Directories are thereby excluded with everything below.

The path has these names as it is read. Where they have no replacement in them this means their
bytes; an exclusion with a replacement in it applies to names as well that are no texts.
-/

namespace LineCoach.Finder

open Pattern (SpellsOut)

variable {text : String} {names : List String}

/-- A text that spells out names is accepted. -/
theorem accepted_of_spellsOut (h : SpellsOut text names) : Accepted text := by
  obtain ⟨-, hnames, before, after, hparts, hopen⟩ := id h
  rw [List.forall_mem_append] at hopen
  obtain ⟨lead, trail, -, -, hreads⟩ :=
    Pattern.reads_spelled h.1 hnames hopen.1 hopen.2 hparts
  exact ⟨(Pattern.exists_parse_iff text).2 ⟨_, hreads⟩, _, h.segments_eq⟩

/-- An exclusion that spells out names applies to the paths that have these names as neighbours. -/
theorem applies_iff_of_spellsOut (h : SpellsOut text names) (path : Path) :
    Applies text path ↔ names <:+: path.names := by
  constructor
  · rintro (⟨whole, hparse, hmatch⟩ | ⟨segments, hsegments, -, hrun⟩)
    · exact h.infix_of_matchesText hparse hmatch
    · rw [h.segments_eq, Except.ok.injEq] at hsegments
      subst hsegments
      exact (Pattern.matchesRun_literal names path.names).1 hrun
  · intro hinfix
    refine Or.inr ⟨_, h.segments_eq, ?_, (Pattern.matchesRun_literal names path.names).2 hinfix⟩
    exact fun hnil => h.1 (List.map_eq_nil_iff.1 hnil)

/-- A finder with one exclusion that spells out names excludes the paths that are read with these
names as neighbours. -/
theorem exists_new_of_spellsOut (h : SpellsOut text names) (extensions : List String) :
    ∃ finder, new extensions [text] = .ok finder ∧
      ∀ path, finder.excludesRaw path = true ↔ names <:+: path.lossyNames := by
  obtain ⟨finder, hfinder⟩ := (exists_new_iff extensions [text]).2
    (List.forall_mem_singleton.2 (accepted_of_spellsOut h))
  refine ⟨finder, hfinder, fun path => ?_⟩
  simp only [excludesRaw_eq, excludes_iff hfinder, List.mem_singleton, exists_eq_left,
    applies_iff_of_spellsOut h, RawPath.names_lossyText]

/-- Neighbouring names of a path are neighbours in all paths below it, from wherever it is seen. -/
theorem infix_names_join_join (base path : Path) {rest : Path} (hrest : rest.isAbsolute = false)
    (h : names <:+: path.names) : names <:+: ((base.join path).join rest).names := by
  rw [Path.names_join _ hrest]
  exact (h.trans (Path.suffix_names_join base path).isInfix).trans (List.prefix_append _ _).isInfix

/-- The same of paths in bytes, whose names are read. -/
theorem infix_lossyNames_join_join (base path : RawPath) {rest : RawPath}
    (hrest : rest.isAbsolute = false) (h : names <:+: path.lossyNames) :
    names <:+: ((base.join path).join rest).lossyNames := by
  refine h.trans (List.IsInfix.map _ ?_)
  rw [RawPath.names_join _ hrest]
  exact (RawPath.suffix_names_join base path).isInfix.trans (List.prefix_append _ _).isInfix

/-- A finder with one exclusion that spells out names excludes exactly the paths that are read with
these names as neighbours. Where the names have no replacement in them, these are the paths with
the bytes of the names as neighbours, and of the paths that are given as text they are those with
the names themselves. So the finder excludes with a path everything below it, from wherever it is
seen, and open ends that are added to the exclusion make no difference. -/
theorem excludes_iff_spelled_names (extensions : List String) (h : SpellsOut text names) :
    ∃ finder, new extensions [text] = .ok finder ∧
      (∀ path : RawPath, finder.excludesRaw path = true ↔ names <:+: path.lossyNames) ∧
      ((∀ name ∈ names, Text.replacement ∉ name.toList) → ∀ path : RawPath,
        finder.excludesRaw path = true ↔
          names.map (fun name => Text.encode name.toList) <:+: path.names) ∧
      (∀ path : Path, finder.excludes path = true ↔ names <:+: path.names) ∧
      (∀ base path rest : RawPath, finder.excludesRaw path = true → rest.isAbsolute = false →
        finder.excludesRaw ((base.join path).join rest) = true) ∧
      (∀ base path rest : Path, finder.excludes path = true → rest.isAbsolute = false →
        finder.excludes ((base.join path).join rest) = true) ∧
      ∀ spelling ∈ ["**/" ++ text, text ++ "/**", "**/" ++ text ++ "/**"],
        ∃ finder', new extensions [spelling] = .ok finder' ∧
          (∀ path : RawPath, finder'.excludesRaw path = finder.excludesRaw path) ∧
          ∀ path : Path, finder'.excludes path = finder.excludes path := by
  obtain ⟨finder, hfinder, hraw⟩ := exists_new_of_spellsOut h extensions
  have htext : ∀ path : Path, finder.excludes path = true ↔ names <:+: path.names := by
    intro path
    rw [excludes, hraw, Path.lossyNames_raw]
  refine ⟨finder, hfinder, hraw, ?_, htext, ?_, ?_, ?_⟩
  · intro hclean path
    rw [hraw, RawPath.infix_lossyNames_iff hclean]
  · intro base path rest hpath hrest
    rw [hraw] at hpath ⊢
    exact infix_lossyNames_join_join base path hrest hpath
  · intro base path rest hpath hrest
    rw [htext] at hpath ⊢
    exact infix_names_join_join base path hrest hpath
  · intro spelling hspelling
    have hspells : SpellsOut spelling names := by
      simp only [List.mem_cons, List.not_mem_nil, or_false] at hspelling
      rcases hspelling with rfl | rfl | rfl
      · exact h.below_any
      · exact h.above_any
      · exact h.below_any.above_any
    obtain ⟨finder', hfinder', hraw'⟩ := exists_new_of_spellsOut hspells extensions
    have hsame : ∀ path : RawPath, finder'.excludesRaw path = finder.excludesRaw path := by
      intro path
      rw [Bool.eq_iff_iff, hraw', hraw]
    exact ⟨finder', hfinder', hsame, fun path => hsame path.raw⟩

/-- Excluding `build` keeps out what has a part of this name, and two names may be spelled out
between open ends of all kinds. Excluding the replacement keeps out what is below the single byte
`0xFF`, which is read as the replacement and is not its encoding. -/
theorem build_excludes_named_build :
    (∃ finder, new ["py"] ["build"] = .ok finder ∧
      (∀ path : RawPath, finder.excludesRaw path = true ↔ ["build"] <:+: path.lossyNames) ∧
      (∀ path : RawPath, finder.excludesRaw path = true ↔
        [[0x62, 0x75, 0x69, 0x6C, 0x64]] <:+: path.names) ∧
      (∀ path : Path, finder.excludes path = true ↔ ["build"] <:+: path.names) ∧
      (∀ base path rest : RawPath, finder.excludesRaw path = true → rest.isAbsolute = false →
        finder.excludesRaw ((base.join path).join rest) = true) ∧
      (∀ base path rest : Path, finder.excludes path = true → rest.isAbsolute = false →
        finder.excludes ((base.join path).join rest) = true) ∧
      ∀ spelling ∈ ["**/build", "build/**", "**/build/**"],
        ∃ finder', new ["py"] [spelling] = .ok finder' ∧
          (∀ path : RawPath, finder'.excludesRaw path = finder.excludesRaw path) ∧
          ∀ path : Path, finder'.excludes path = finder.excludes path) ∧
    (∃ finder, new ["py"] ["//**/src/gen/**/"] = .ok finder ∧
      ∀ path : RawPath, finder.excludesRaw path = true ↔ ["src", "gen"] <:+: path.lossyNames) ∧
    ∃ finder, new ["py"] ["\uFFFD"] = .ok finder ∧
      finder.excludesRaw ⟨[0x2F, 0x78, 0x2F, 0xFF, 0x2F, 0x61, 0x2E, 0x70, 0x79]⟩ = true ∧
      ¬ [Text.encode [Text.replacement]] <:+:
        RawPath.names ⟨[0x2F, 0x78, 0x2F, 0xFF, 0x2F, 0x61, 0x2E, 0x70, 0x79]⟩ := by
  refine ⟨?_, ?_, ?_⟩
  · have hspells : SpellsOut "build" ["build"] := Pattern.spellsOut_name (by decide)
    obtain ⟨finder, hfinder, hraw, hbytes, hrest⟩ := excludes_iff_spelled_names ["py"] hspells
    exact ⟨finder, hfinder, hraw, hbytes (by decide), hrest⟩
  · have hspells : SpellsOut "//**/src/gen/**/" ["src", "gen"] :=
      ⟨by decide, by decide, [[], [], ['*', '*']], [['*', '*'], []], by decide, by decide⟩
    obtain ⟨finder, hfinder, hraw, -⟩ := excludes_iff_spelled_names ["py"] hspells
    exact ⟨finder, hfinder, hraw⟩
  · have hspells : SpellsOut "\uFFFD" ["\uFFFD"] := Pattern.spellsOut_name (by decide)
    obtain ⟨finder, hfinder, hraw, -⟩ := excludes_iff_spelled_names ["py"] hspells
    exact ⟨finder, hfinder, (hraw _).2 (by decide), by decide⟩

end LineCoach.Finder
