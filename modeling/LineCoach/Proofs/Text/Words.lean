import Mathlib.Data.List.Chain
import LineCoach.Proofs.Text.Slashes
import LineCoach.Text.Blank

/-!
# Words and blanks

A text that is cut at every blank has one piece more than it has blanks, and its words are those
pieces that are not empty. Which blanks stand between two words makes no difference to the words.
Put together again with single spaces they lose a character for each empty piece beside them. So the
respaced text is never longer than the text, and it is as long exactly where no blank stands at an
end of the text and no two of them together.
-/

namespace LineCoach.Text

/-- The words of a text are those before a blank and those behind it. -/
theorem words_blank {blank : Char} (h : isBlank blank = true) (front back : List Char) :
    words (front ++ blank :: back) = words front ++ words back := by
  rw [words, List.splitOnP_append_cons _ _ h, List.filter_append]
  rfl

/-- Between two texts it makes no difference which blanks there are, nor how many. -/
theorem words_gap {gap : List Char} (hne : gap ≠ []) (hblank : ∀ c ∈ gap, isBlank c = true)
    (front back : List Char) : words (front ++ gap ++ back) = words front ++ words back := by
  induction gap generalizing front with
  | nil => exact absurd rfl hne
  | cons c rest ih =>
    rw [List.forall_mem_cons] at hblank
    rw [List.append_assoc, List.cons_append, words_blank hblank.1]
    cases rest with
    | nil => rfl
    | cons d more =>
      have hrest := ih (List.cons_ne_nil _ _) hblank.2 []
      rw [List.nil_append] at hrest
      rw [hrest]
      rfl

/-- The pieces of a text between its blanks have all characters of the text but the blanks, and
there is one piece more than there are blanks. -/
theorem length_flatten_splitOnP (text : List Char) :
    (text.splitOnP isBlank).flatten.length + (text.splitOnP isBlank).length = text.length + 1 := by
  induction text using cut_induction isBlank with
  | last part hpart =>
    rw [List.splitOnP_eq_singleton hpart, List.flatten_singleton, List.length_singleton]
  | more part blank rest hpart hblank ih =>
    rw [List.splitOnP_append_cons_of_forall_mem hpart _ hblank, List.flatten_cons,
      List.length_append, List.length_append, List.length_cons, List.length_cons]
    omega

/-- Parts that are joined by one character take one more than they have for each that is joined to
another one. -/
theorem length_intercalate_singleton (separator : Char) (parts : List (List Char)) :
    ([separator].intercalate parts).length = parts.flatten.length + (parts.length - 1) := by
  induction parts with
  | nil => rfl
  | cons part rest ih =>
    cases rest with
    | nil => rw [List.intercalate_singleton, List.flatten_singleton]; rfl
    | cons next more =>
      rw [List.intercalate_cons_cons, List.length_append, List.length_append, ih]
      simp only [List.flatten_cons, List.length_append, List.length_cons, List.length_nil]
      omega

/-- The respaced text has the characters of the pieces, and a space between each two words. -/
theorem length_respaced (text : List Char) :
    (respaced text).length =
      (text.splitOnP isBlank).flatten.length + ((words text).length - 1) := by
  rw [respaced, length_intercalate_singleton, words, List.flatten_filter_not_isEmpty]

/-- There are no more words than pieces, and there is a piece. -/
theorem length_words_le (text : List Char) :
    (words text).length ≤ (text.splitOnP isBlank).length ∧ 0 < (text.splitOnP isBlank).length :=
  ⟨List.length_filter_le _ _, List.length_pos_iff.2 (List.splitOnP_ne_nil _ _)⟩

/-- Respacing a text does not make it longer. -/
theorem length_respaced_le (text : List Char) : (respaced text).length ≤ text.length := by
  have hpieces := length_flatten_splitOnP text
  have hwords := length_words_le text
  rw [length_respaced]
  omega

/-- A text has no blank at its ends, and each of its runs of blanks is a single character. -/
structure Tight (text : List Char) : Prop where
  /-- The text does not start with a blank. -/
  head : ∀ c ∈ text.head?, isBlank c = false
  /-- The text does not end with a blank. -/
  last : ∀ c ∈ text.getLast?, isBlank c = false
  /-- Blanks that stand together are one blank. -/
  runs : ∀ run, run <:+: text → (∀ c ∈ run, isBlank c = true) → run.length ≤ 1

/-- Runs of blanks are single characters if no blank follows another. -/
theorem runs_iff (text : List Char) :
    (∀ run, run <:+: text → (∀ c ∈ run, isBlank c = true) → run.length ≤ 1) ↔
      text.IsChain fun c d => isBlank c = true → isBlank d = false := by
  constructor
  · intro hruns
    rw [List.isChain_iff_forall_rel_of_append_cons_cons]
    intro c d front back htext hc
    rw [← Bool.not_eq_true]
    intro hd
    have hpair : [c, d] <:+: text := ⟨front, back, by rw [htext]; simp⟩
    have hle := hruns [c, d] hpair (by simp [hc, hd])
    exact Nat.not_succ_le_self 1 hle
  · intro hchain run hrun hblank
    match run, hrun, hblank with
    | [], _, _ => exact Nat.zero_le _
    | [_], _, _ => exact Nat.le_refl _
    | c :: d :: more, hrun, hblank =>
      have hinside := List.IsChain.infix hchain hrun
      have hpair := (List.isChain_cons_cons.1 hinside).1 (hblank c (by simp))
      rw [hblank d (by simp)] at hpair
      cases hpair

/-- A text is tight if there is no blank at its ends and none behind another. -/
theorem tight_iff (text : List Char) :
    Tight text ↔ (∀ c ∈ text.head?, isBlank c = false) ∧ (∀ c ∈ text.getLast?, isBlank c = false) ∧
      text.IsChain fun c d => isBlank c = true → isBlank d = false := by
  rw [← runs_iff]
  exact ⟨fun h => ⟨h.head, h.last, h.runs⟩, fun ⟨head, last, runs⟩ => ⟨head, last, runs⟩⟩

/-- A text without blanks is tight. -/
theorem tight_of_forall {text : List Char} (h : ∀ c ∈ text, isBlank c = false) : Tight text := by
  rw [tight_iff]
  refine ⟨fun c hc => h c (List.mem_of_head? hc), fun c hc => h c (List.mem_of_getLast? hc), ?_⟩
  rw [List.isChain_iff_forall_rel_of_append_cons_cons]
  intro c d front back htext _
  exact h d (by rw [htext]; simp)

/-- Behind its first blank a tight text goes on, and what follows is tight. -/
theorem tight_append_blank {part rest : List Char} {blank : Char}
    (hpart : ∀ c ∈ part, isBlank c = false) (hblank : isBlank blank = true) :
    Tight (part ++ blank :: rest) ↔ part ≠ [] ∧ rest ≠ [] ∧ Tight rest := by
  constructor
  · intro h
    have hpartNe : part ≠ [] := by
      rintro rfl
      have hhead := h.head blank rfl
      rw [hblank] at hhead
      cases hhead
    have hrestNe : rest ≠ [] := by
      rintro rfl
      have hlast := h.last blank (by simp)
      rw [hblank] at hlast
      cases hlast
    have hchain := ((tight_iff _).1 h).2.2
    rw [List.isChain_append, List.isChain_cons] at hchain
    have hlast := h.last
    rw [List.getLast?_append_of_ne_nil _ (List.cons_ne_nil _ _),
      List.getLast?_cons_of_ne_nil hrestNe] at hlast
    refine ⟨hpartNe, hrestNe, (tight_iff rest).2 ⟨?_, hlast, hchain.2.1.2⟩⟩
    intro c hc
    exact hchain.2.1.1 c hc hblank
  · rintro ⟨hpartNe, hrestNe, hrest⟩
    have hbefore := ((tight_iff part).1 (tight_of_forall hpart)).2.2
    have hbehind := ((tight_iff rest).1 hrest).2.2
    rw [tight_iff, List.head?_append_of_ne_nil _ hpartNe,
      List.getLast?_append_of_ne_nil _ (List.cons_ne_nil _ _),
      List.getLast?_cons_of_ne_nil hrestNe]
    refine ⟨fun c hc => hpart c (List.mem_of_head? hc), hrest.last, ?_⟩
    refine hbefore.append (hbehind.cons fun next hnext _ => hrest.head next hnext) ?_
    intro c hc next _ hcBlank
    rw [hpart c (List.mem_of_getLast? hc)] at hcBlank
    cases hcBlank

/-- No piece of a text is empty if the text has some characters and is tight. -/
theorem nil_not_mem_splitOnP_iff (text : List Char) :
    [] ∉ text.splitOnP isBlank ↔ text ≠ [] ∧ Tight text := by
  induction text using cut_induction isBlank with
  | last part hpart =>
    rw [List.splitOnP_eq_singleton hpart, List.mem_singleton, eq_comm]
    exact ⟨fun hne => ⟨hne, tight_of_forall hpart⟩, fun h => h.1⟩
  | more part blank rest hpart hblank ih =>
    rw [List.splitOnP_append_cons_of_forall_mem hpart _ hblank, List.mem_cons, not_or, ih,
      tight_append_blank hpart hblank, eq_comm]
    simp

/-- Respacing keeps the number of characters of tight texts, and of no others. -/
theorem length_respaced_eq_iff (text : List Char) :
    (respaced text).length = text.length ↔ Tight text := by
  have hpieces := length_flatten_splitOnP text
  obtain ⟨hle, hpos⟩ := length_words_le text
  have hall : (words text).length = (text.splitOnP isBlank).length ↔
      [] ∉ text.splitOnP isBlank := by
    rw [words, List.length_filter_eq_length_iff]
    simp only [Bool.not_eq_true', List.isEmpty_eq_false_iff]
    exact ⟨fun h hnil => h [] hnil rfl, fun h part hpart hnil => h (hnil ▸ hpart)⟩
  rw [length_respaced]
  by_cases htext : text = []
  · subst htext
    exact ⟨fun _ => tight_of_forall (by simp), fun _ => rfl⟩
  · have htight : Tight text ↔ (words text).length = (text.splitOnP isBlank).length := by
      rw [hall, nil_not_mem_splitOnP_iff]
      exact (and_iff_right htext).symm
    -- a text without words has no characters but blanks, and then it has too many of them
    have hnone : (words text).length = 0 → (text.splitOnP isBlank).flatten.length = 0 := by
      intro hzero
      rw [← List.flatten_filter_not_isEmpty, ← words, List.length_eq_zero_iff.1 hzero]
      rfl
    have hlength : 0 < text.length := List.length_pos_iff.2 htext
    rw [htight]
    omega

instance (text : List Char) : Decidable (Tight text) :=
  decidable_of_iff _ (length_respaced_eq_iff text)

end LineCoach.Text
