import Mathlib.Data.List.Basic
import LineCoach.Finder.Discover
import LineCoach.Proofs.Path.Raw

/-!
# Exclusions one by one

A finder reads all texts of exclusions twice, as patterns for whole paths and as patterns for
neighbouring names, and keeps two lists. Here each text is looked at by itself: when it is accepted,
and which paths it keeps out. A finder is then nothing but its texts. It can be made if each of them
is accepted, and it excludes what one of them does. Neither their order nor their repetition
matters, and the exclusions of texts that come from two places are those of the one and of the
other.
-/

namespace LineCoach

section Readings

variable {α β ε : Type}

/-- Two readings one after the other succeed if both do. -/
theorem bind_eq_ok_iff {first : Except ε α} {next : α → Except ε β} {result : β} :
    first >>= next = .ok result ↔ ∃ value, first = .ok value ∧ next value = .ok result := by
  cases first with
  | error e => simp [bind, Except.bind]
  | ok value => simp [bind, Except.bind]

/-- All items can be read if each of them can. -/
theorem exists_mapM_iff (read : α → Except ε β) (items : List α) :
    (∃ results, items.mapM read = .ok results) ↔ ∀ item ∈ items, ∃ result, read item = .ok result := by
  induction items with
  | nil => simp [pure, Except.pure]
  | cons item rest ih =>
    simp only [List.mapM_cons, bind_eq_ok_iff, List.forall_mem_cons, ← ih]
    constructor
    · rintro ⟨-, result, hresult, results, hresults, -⟩
      exact ⟨⟨result, hresult⟩, results, hresults⟩
    · rintro ⟨⟨result, hresult⟩, results, hresults⟩
      exact ⟨result :: results, result, hresult, results, hresults, rfl⟩

/-- What is read is what the items say. -/
theorem mem_of_mapM {read : α → Except ε β} {items : List α} {results : List β}
    (h : items.mapM read = .ok results) (result : β) :
    result ∈ results ↔ ∃ item ∈ items, read item = .ok result := by
  induction items generalizing results with
  | nil =>
    obtain rfl : [] = results := Except.ok.inj h
    simp
  | cons item rest ih =>
    rw [List.mapM_cons] at h
    obtain ⟨first, hfirst, hrest⟩ := bind_eq_ok_iff.1 h
    obtain ⟨others, hothers, hresults⟩ := bind_eq_ok_iff.1 hrest
    obtain rfl : first :: others = results := Except.ok.inj hresults
    have hhead : result = first ↔ read item = .ok result := by
      rw [hfirst, Except.ok.injEq, eq_comm]
    simp only [List.mem_cons, or_and_right, exists_or, exists_eq_left, ih hothers, hhead]

end Readings

namespace Finder

/-- A text of an exclusion that can be read, both for whole paths and for neighbouring names. -/
def Accepted (text : String) : Prop :=
  (∃ whole, Pattern.parse text = .ok whole) ∧ ∃ segments, Pattern.segments text = .ok segments

/-- The exclusion with this text applies to the path. A text whose parts are all open at the ends
says nothing about neighbouring names. -/
def Applies (text : String) (path : Path) : Prop :=
  (∃ whole, Pattern.parse text = .ok whole ∧ whole.matchesText path.text = true) ∨
    ∃ segments, Pattern.segments text = .ok segments ∧ segments ≠ [] ∧
      Pattern.matchesRun segments path.names = true

variable {extensions texts : List String} {finder : Finder}

/-- What a finder is made of. -/
theorem new_eq_ok_iff :
    new extensions texts = .ok finder ↔
      ∃ whole, texts.mapM Pattern.parse = .ok whole ∧
        ∃ runs, texts.mapM Pattern.segments = .ok runs ∧
          ⟨extensions, whole, runs.filter fun segments => !segments.isEmpty⟩ = finder := by
  simp only [new, bind_eq_ok_iff, pure, Except.pure, Except.ok.injEq]

/-- A finder can be made if all its texts are accepted. -/
theorem exists_new_iff (extensions texts : List String) :
    (∃ finder, new extensions texts = .ok finder) ↔ ∀ text ∈ texts, Accepted text := by
  simp only [Accepted, forall_and, ← exists_mapM_iff, new_eq_ok_iff]
  constructor
  · rintro ⟨-, whole, hwhole, runs, hruns, -⟩
    exact ⟨⟨whole, hwhole⟩, runs, hruns⟩
  · rintro ⟨⟨whole, hwhole⟩, runs, hruns⟩
    exact ⟨_, whole, hwhole, runs, hruns, rfl⟩

/-- A finder wants the extensions that it was made for. -/
theorem extensions_of_new (h : new extensions texts = .ok finder) :
    finder.extensions = extensions := by
  obtain ⟨whole, -, runs, -, rfl⟩ := new_eq_ok_iff.1 h
  rfl

/-- A path is matched as it was given, since this is what is read from its bytes. -/
theorem excludes_eq (finder : Finder) (path : Path) :
    finder.excludes path =
      (finder.exclude.any (·.matchesText path.text)
        || finder.excludeRuns.any (Pattern.matchesRun · path.names)) := by
  rw [excludes, excludesRaw, Path.lossyText_raw, Path.lossyNames_raw]

/-- A path in bytes is excluded exactly if the path that it is read as is excluded. -/
theorem excludesRaw_eq (finder : Finder) (path : RawPath) :
    finder.excludesRaw path = finder.excludes ⟨path.lossyText⟩ := by
  rw [excludes_eq, RawPath.names_lossyText, excludesRaw]

/-- A finder excludes a path if one of its texts applies to it. -/
theorem excludes_iff (h : new extensions texts = .ok finder) (path : Path) :
    finder.excludes path = true ↔ ∃ text ∈ texts, Applies text path := by
  obtain ⟨whole, hwhole, runs, hruns, rfl⟩ := new_eq_ok_iff.1 h
  simp only [excludes_eq, Bool.or_eq_true, List.any_eq_true, List.mem_filter, Bool.not_eq_true',
    List.isEmpty_eq_false_iff, mem_of_mapM hwhole, mem_of_mapM hruns, Applies]
  constructor
  · rintro (⟨pattern, ⟨text, htext, hparse⟩, hmatch⟩ | ⟨run, ⟨⟨text, htext, hread⟩, hrun⟩, hmatch⟩)
    · exact ⟨text, htext, Or.inl ⟨pattern, hparse, hmatch⟩⟩
    · exact ⟨text, htext, Or.inr ⟨run, hread, hrun, hmatch⟩⟩
  · rintro ⟨text, htext, ⟨pattern, hparse, hmatch⟩ | ⟨run, hread, hrun, hmatch⟩⟩
    · exact Or.inl ⟨pattern, ⟨text, htext, hparse⟩, hmatch⟩
    · exact Or.inr ⟨run, ⟨⟨text, htext, hread⟩, hrun⟩, hmatch⟩

/-- Accepted texts from two places, put together in any way, make a finder. It excludes what the
texts of the one place exclude and what those of the other do. -/
theorem exists_new_of_merged {extensions' more merged : List String} {extra : Finder}
    (h : new extensions texts = .ok finder) (hmore : new extensions' more = .ok extra)
    (hmerged : ∀ text, text ∈ merged ↔ text ∈ texts ∨ text ∈ more) :
    ∃ finder', new extensions merged = .ok finder' ∧
      ∀ path, finder'.excludes path = (finder.excludes path || extra.excludes path) := by
  have haccepted : ∀ text ∈ merged, Accepted text := by
    intro text htext
    rcases (hmerged text).1 htext with htext | htext
    · exact (exists_new_iff _ _).1 ⟨finder, h⟩ text htext
    · exact (exists_new_iff _ _).1 ⟨extra, hmore⟩ text htext
  obtain ⟨finder', hfinder'⟩ := (exists_new_iff extensions merged).2 haccepted
  refine ⟨finder', hfinder', fun path => ?_⟩
  rw [Bool.eq_iff_iff, Bool.or_eq_true, excludes_iff hfinder', excludes_iff h, excludes_iff hmore]
  simp only [hmerged, or_and_right, exists_or]

/-- Excluding more takes files out of a selection and leaves the others in their order. -/
theorem select_of_excludes {finder' extra : Finder} (hextensions : finder'.extensions = finder.extensions)
    (hexcludes : ∀ path, finder'.excludes path = (finder.excludes path || extra.excludes path))
    (files : List Path) :
    finder'.select files = (finder.select files).filter fun path => !extra.excludes path := by
  have hcandidates : finder'.candidates files = finder.candidates files := by
    unfold candidates
    apply List.filter_congr
    intro path _
    simp only [hasExtension, hextensions]
  unfold select
  rw [hcandidates, List.filter_filter]
  apply List.filter_congr
  intro path _
  rw [hexcludes, Bool.not_or, Bool.and_comm]

end Finder

end LineCoach
