import Mathlib.Data.List.Basic

/-!
# Texts that are cut at slashes

Paths and patterns are cut at every slash, as other texts are at other characters, and bytes are
like texts in this. A text is one part, or a part, a slash and another text; facts about all parts
of a text are proved along this. The parts say what the text is: it is its only part, or it begins
with the first one and a slash.
-/

namespace LineCoach.Text

/-- A text is one part without separators, or such a part, a separator and another text. -/
@[elab_as_elim]
theorem cut_induction {α : Type} (separates : α → Bool) {motive : List α → Prop}
    (last : ∀ part, (∀ c ∈ part, separates c = false) → motive part)
    (more : ∀ part separator rest, (∀ c ∈ part, separates c = false) →
      separates separator = true → motive rest → motive (part ++ separator :: rest))
    (text : List α) : motive text := by
  -- the part that is read so far grows until a separator ends it
  suffices h : ∀ part, (∀ c ∈ part, separates c = false) → motive (part ++ text) from
    h [] (by simp)
  induction text with
  | nil =>
    intro part hpart
    rw [List.append_nil]
    exact last part hpart
  | cons c rest ih =>
    intro part hpart
    cases hc : separates c with
    | true => exact more part c rest hpart hc (ih [] (by simp))
    | false =>
      have hgrown : ∀ d ∈ part ++ [c], separates d = false := by
        rw [List.forall_mem_append, List.forall_mem_singleton]
        exact ⟨hpart, hc⟩
      have hmotive := ih (part ++ [c]) hgrown
      rwa [List.append_assoc, List.singleton_append] at hmotive

/-- A text is one part, or a part with a slash behind it and another text. -/
@[elab_as_elim]
theorem slash_induction {motive : List Char → Prop} (last : ∀ part, '/' ∉ part → motive part)
    (more : ∀ part rest, '/' ∉ part → motive rest → motive (part ++ '/' :: rest))
    (text : List Char) : motive text := by
  have hnone {part : List Char} (h : ∀ c ∈ part, decide (c = '/') = false) : '/' ∉ part :=
    fun hmem => absurd (h '/' hmem) (by decide)
  induction text using cut_induction (· = '/') with
  | last part hpart => exact last part (hnone hpart)
  | more part separator rest hpart hseparator ih =>
    rw [of_decide_eq_true hseparator]
    exact more part rest (hnone hpart) ih

/-- A text without a slash has itself as its only part. -/
theorem splitOnP_of_not_mem {part : List Char} (h : '/' ∉ part) :
    part.splitOnP (· = '/') = [part] := by
  refine List.splitOnP_eq_singleton fun c hc => ?_
  rw [decide_eq_false_iff_not]
  rintro rfl
  exact h hc

/-- The parts of a text are the one before its first slash and those of the text behind it. -/
theorem splitOnP_append_slash {part : List Char} (h : '/' ∉ part) (rest : List Char) :
    (part ++ '/' :: rest).splitOnP (· = '/') = part :: rest.splitOnP (· = '/') := by
  rw [List.splitOnP_append_cons _ _ (by rfl), splitOnP_of_not_mem h, List.singleton_append]

/-- No part of a text has a slash in it. -/
theorem slash_not_mem_of_mem_splitOnP {text part : List Char}
    (h : part ∈ text.splitOnP (· = '/')) : '/' ∉ part := by
  induction text using slash_induction with
  | last only hnone =>
    rw [splitOnP_of_not_mem hnone, List.mem_singleton] at h
    exact h ▸ hnone
  | more first rest hnone ih =>
    rw [splitOnP_append_slash hnone] at h
    rcases List.mem_cons.1 h with rfl | hrest
    · exact hnone
    · exact ih hrest

/-- A text is its only part, or it begins with its first part and a slash. -/
theorem of_splitOnP_eq_cons {text part : List Char} {more : List (List Char)}
    (h : text.splitOnP (· = '/') = part :: more) :
    (more = [] ∧ text = part) ∨
      ∃ rest, text = part ++ '/' :: rest ∧ rest.splitOnP (· = '/') = more := by
  by_cases hslash : '/' ∈ text
  · obtain ⟨first, rest, rfl, hfirst⟩ := List.eq_append_cons_of_mem hslash
    rw [splitOnP_append_slash hfirst, List.cons.injEq] at h
    obtain ⟨rfl, hrest⟩ := h
    exact Or.inr ⟨rest, rfl, hrest⟩
  · rw [splitOnP_of_not_mem hslash, List.cons.injEq] at h
    exact Or.inl ⟨h.2.symm, h.1⟩

end LineCoach.Text
