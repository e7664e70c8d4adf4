import Mathlib.Data.List.Basic
import LineCoach.Text.Lines

/-!
# The lines of a text, told by where they stand

A text is cut by a fold, and its lines are numbered by counting pieces. What a line is can also be
told without cutting anything: it starts the text or follows a newline, it goes as far as its only
newline or to the end of the text, and its number is one more than the number of newlines before it.
The scanner's lines are exactly these, in order, and all of them put together are the text.
-/

namespace LineCoach.Text

/-- A piece of a text that stands behind `before` is a whole line of it. -/
structure PieceAt (text before piece : List Char) : Prop where
  /-- The piece starts the text or follows a newline. -/
  opened : ∀ c ∈ before.getLast?, c = '\n'
  /-- The piece stands behind `before` in the text. -/
  within : before ++ piece <+: text
  /-- The piece ends in its only newline, or it is the end of the text and has none. -/
  closed : (∃ body, '\n' ∉ body ∧ piece = body ++ ['\n']) ∨
    ('\n' ∉ piece ∧ piece ≠ [] ∧ before ++ piece = text)

/-- A line with its number stands behind `before`. -/
structure LineAt (text before : List Char) (line : Line) : Prop
    extends PieceAt text before line.text.toList where
  /-- The number counts the newlines before the line, from one. -/
  number : line.number = before.count '\n' + 1

/-- Only one way leads to the first newline of a text. -/
theorem append_newline_inj {first second rest other : List Char} (hfirst : '\n' ∉ first)
    (hsecond : '\n' ∉ second) (h : first ++ '\n' :: rest = second ++ '\n' :: other) :
    first = second ∧ rest = other := by
  induction first generalizing second with
  | nil =>
    cases second with
    | nil => exact ⟨rfl, List.tail_eq_of_cons_eq h⟩
    | cons c second =>
      cases h
      exact absurd List.mem_cons_self hsecond
  | cons c first ih =>
    cases second with
    | nil =>
      cases h
      exact absurd List.mem_cons_self hfirst
    | cons d second =>
      rw [List.cons_append, List.cons_append, List.cons.injEq] at h
      obtain ⟨rfl, hrest⟩ := h
      obtain ⟨rfl, rfl⟩ := ih (fun hc => hfirst (List.mem_cons_of_mem _ hc))
        (fun hc => hsecond (List.mem_cons_of_mem _ hc)) hrest
      exact ⟨rfl, rfl⟩

/-- What goes up to the first newline is the first piece. -/
theorem pieces_newline {body : List Char} (h : '\n' ∉ body) (rest : List Char) :
    pieces (body ++ '\n' :: rest) = (body ++ ['\n']) :: pieces rest := by
  induction body with
  | nil =>
    rw [List.nil_append, pieces_cons]
    cases pieces rest with
    | nil => rfl
    | cons piece more => rfl
  | cons c body ih =>
    rw [List.mem_cons, not_or] at h
    rw [List.cons_append, pieces_cons, ih h.2, consPiece, if_neg (Ne.symm h.1), List.cons_append]

/-- A text without a newline is one piece. -/
theorem pieces_of_not_mem {text : List Char} (h : '\n' ∉ text) (hne : text ≠ []) :
    pieces text = [text] := by
  induction text with
  | nil => exact absurd rfl hne
  | cons c text ih =>
    rw [List.mem_cons, not_or] at h
    cases text with
    | nil => rfl
    | cons d text =>
      rw [pieces_cons, ih h.2 (List.cons_ne_nil _ _), consPiece, if_neg (Ne.symm h.1)]

namespace PieceAt

variable {text before body rest piece : List Char}

theorem piece_ne_nil (h : PieceAt text before piece) : piece ≠ [] := by
  rcases h.closed with ⟨body, -, rfl⟩ | ⟨-, hne, -⟩
  · exact List.append_ne_nil_of_right_ne_nil _ (List.cons_ne_nil _ _)
  · exact hne

/-- The line with no newline before it starts the text. -/
theorem before_eq_nil (h : PieceAt text before piece) (hcount : before.count '\n' = 0) :
    before = [] := by
  rw [← List.getLast?_eq_none_iff, Option.eq_none_iff_forall_ne_some]
  intro c hc
  have hmem := List.mem_of_getLast? hc
  rw [h.opened c hc] at hmem
  exact List.count_eq_zero.1 hcount hmem

/-- The lines behind the first newline are those of the text that follows it. -/
theorem behind_newline_iff :
    PieceAt (body ++ '\n' :: rest) (body ++ '\n' :: before) piece ↔ PieceAt rest before piece := by
  have hopened : (∀ c ∈ (body ++ '\n' :: before).getLast?, c = '\n') ↔
      ∀ c ∈ before.getLast?, c = '\n' := by
    rw [List.getLast?_append_cons, List.getLast?_cons]
    cases before.getLast? with
    | none => simp
    | some c => simp
  have hwithin : body ++ '\n' :: before ++ piece <+: body ++ '\n' :: rest ↔
      before ++ piece <+: rest := by
    simp [List.prefix_append_right_inj]
  have hend : body ++ '\n' :: before ++ piece = body ++ '\n' :: rest ↔ before ++ piece = rest := by
    simp
  constructor
  · rintro ⟨opened, within, closed⟩
    rw [hend] at closed
    exact ⟨hopened.1 opened, hwithin.1 within, closed⟩
  · rintro ⟨opened, within, closed⟩
    refine ⟨hopened.2 opened, hwithin.2 within, ?_⟩
    rw [hend]
    exact closed

/-- A line that is not the first stands behind the first newline. -/
theorem exists_behind_newline (hbody : '\n' ∉ body) (h : PieceAt (body ++ '\n' :: rest) before piece)
    (hmem : '\n' ∈ before) : ∃ more, before = body ++ '\n' :: more := by
  obtain ⟨first, more, rfl, hfirst⟩ := List.eq_append_cons_of_mem hmem
  obtain ⟨after, hafter⟩ := h.within
  rw [List.append_assoc, List.append_assoc, List.cons_append] at hafter
  obtain ⟨rfl, -⟩ := append_newline_inj hfirst hbody hafter
  exact ⟨more, rfl⟩

/-- The first line of a text with a newline goes up to it. -/
theorem first_iff (hbody : '\n' ∉ body) :
    PieceAt (body ++ '\n' :: rest) [] piece ↔ piece = body ++ ['\n'] := by
  constructor
  · rintro ⟨-, ⟨after, hafter⟩, hclosed⟩
    rcases hclosed with ⟨other, hother, rfl⟩ | ⟨hnone, -, rfl⟩
    · rw [List.nil_append, List.append_assoc] at hafter
      obtain ⟨rfl, -⟩ := append_newline_inj hother hbody hafter
      rfl
    · exact absurd (List.mem_append_right body List.mem_cons_self) hnone
  · rintro rfl
    refine ⟨by simp, ⟨rest, by simp⟩, .inl ⟨body, hbody, rfl⟩⟩

/-- A text without a newline has no line but itself. -/
theorem iff_of_not_mem (htext : '\n' ∉ text) :
    PieceAt text before piece ↔ before = [] ∧ piece = text ∧ text ≠ [] := by
  constructor
  · intro h
    have hnone : '\n' ∉ before ++ piece := fun hmem => htext (h.within.subset hmem)
    rw [List.mem_append, not_or] at hnone
    have hbefore := h.before_eq_nil (List.count_eq_zero.2 hnone.1)
    subst hbefore
    rcases h.closed with ⟨body, -, rfl⟩ | ⟨-, hne, rfl⟩
    · exact absurd (List.mem_append_right body List.mem_cons_self) hnone.2
    · exact ⟨rfl, rfl, hne⟩
  · rintro ⟨rfl, rfl, hne⟩
    exact ⟨by simp, ⟨[], by simp⟩, .inr ⟨htext, hne, rfl⟩⟩

end PieceAt

/-- The first piece of a text is its line with no newline before it. -/
theorem getElem?_pieces_zero_iff (text piece : List Char) :
    (pieces text)[0]? = some piece ↔
      ∃ before, PieceAt text before piece ∧ before.count '\n' = 0 := by
  have hfirst : (∃ before, PieceAt text before piece ∧ before.count '\n' = 0) ↔
      PieceAt text [] piece := by
    constructor
    · rintro ⟨before, h, hcount⟩
      rwa [h.before_eq_nil hcount] at h
    · intro h
      exact ⟨[], h, rfl⟩
  rw [hfirst]
  by_cases hmem : '\n' ∈ text
  · obtain ⟨body, rest, rfl, hbody⟩ := List.eq_append_cons_of_mem hmem
    rw [pieces_newline hbody, List.getElem?_cons_zero, Option.some.injEq, eq_comm,
      PieceAt.first_iff hbody]
  · rw [PieceAt.iff_of_not_mem hmem]
    by_cases hne : text = []
    · simp [hne]
    · simp [pieces_of_not_mem hmem hne, hne, eq_comm]

/-- The pieces into which a text is cut are its lines, each in the place that the newlines before it
give to it. -/
theorem getElem?_pieces_iff (text : List Char) (row : Nat) (piece : List Char) :
    (pieces text)[row]? = some piece ↔
      ∃ before, PieceAt text before piece ∧ before.count '\n' = row := by
  induction row generalizing text with
  | zero => exact getElem?_pieces_zero_iff text piece
  | succ row ih =>
    by_cases hmem : '\n' ∈ text
    · -- what follows the first newline has the same lines, one row higher
      obtain ⟨body, rest, rfl, hbody⟩ := List.eq_append_cons_of_mem hmem
      have hcount (before : List Char) :
          (body ++ '\n' :: before).count '\n' = before.count '\n' + 1 := by
        rw [List.count_append, List.count_eq_zero.2 hbody, List.count_cons_self, Nat.zero_add]
      rw [pieces_newline hbody, List.getElem?_cons_succ, ih]
      constructor
      · rintro ⟨before, h, rfl⟩
        exact ⟨body ++ '\n' :: before, PieceAt.behind_newline_iff.2 h, hcount before⟩
      · rintro ⟨before, h, hrow⟩
        obtain ⟨more, rfl⟩ := h.exists_behind_newline hbody (List.count_pos_iff.1 (by omega))
        rw [hcount, Nat.add_right_cancel_iff] at hrow
        exact ⟨more, PieceAt.behind_newline_iff.1 h, hrow⟩
    · simp only [PieceAt.iff_of_not_mem hmem]
      by_cases hne : text = []
      · simp [hne]
      · simp [pieces_of_not_mem hmem hne]

/-- The lines of a text are those that stand in it. -/
theorem mem_lines_iff (content : String) (line : Line) :
    line ∈ lines content ↔ ∃ before, LineAt content.toList before line := by
  obtain ⟨number, text⟩ := line
  simp only [lines, List.mem_map, Prod.exists, List.mem_zipIdx_iff_getElem?, getElem?_pieces_iff,
    Line.mk.injEq]
  constructor
  · rintro ⟨piece, row, ⟨before, h, rfl⟩, rfl, rfl⟩
    exact ⟨before, ⟨by rwa [String.toList_ofList], rfl⟩⟩
  · rintro ⟨before, h, hnumber⟩
    exact ⟨text.toList, before.count '\n', ⟨before, h, rfl⟩, hnumber.symm, String.ofList_toList⟩

/-- The long lines of a text are those that stand in it and have more characters than the limit. -/
theorem mem_longLines_iff (content : String) (limit : Nat) (line : Line) :
    line ∈ longLines content limit ↔
      limit < line.length ∧ ∃ before, LineAt content.toList before line := by
  rw [longLines, List.mem_filter, mem_lines_iff, Line.exceeds, decide_eq_true_eq, and_comm]

/-- Every line has a character, so that none is left out where no length is allowed. -/
theorem longLines_zero (content : String) : longLines content 0 = lines content := by
  rw [longLines, List.filter_eq_self]
  intro line hline
  obtain ⟨before, h⟩ := (mem_lines_iff content line).1 hline
  rw [Line.exceeds, decide_eq_true_eq, Line.length, ← String.length_toList]
  exact List.length_pos_iff.2 h.piece_ne_nil

/-- The lines put together again are the text. -/
theorem flatMap_lines (content : String) :
    (lines content).flatMap (fun line => line.text.toList) = content.toList := by
  rw [lines, List.flatMap_map]
  simp only [String.toList_ofList]
  rw [List.flatMap_def, List.zipIdx_map_fst, flatten_pieces]

/-- Lines are numbered in order. -/
theorem pairwise_lines (content : String) :
    (lines content).Pairwise fun line later => line.number < later.number := by
  rw [lines, List.pairwise_map]
  have hnumbers : ((pieces content.toList).zipIdx.map Prod.snd).Pairwise (· < ·) := by
    rw [List.zipIdx_map_snd]
    exact List.pairwise_lt_range'
  rw [List.pairwise_map] at hnumbers
  exact hnumbers.imp Nat.succ_lt_succ

/-- Long lines come in order. -/
theorem pairwise_longLines (content : String) (limit : Nat) :
    (longLines content limit).Pairwise fun line later => line.number < later.number :=
  (pairwise_lines content).filter _

end LineCoach.Text
