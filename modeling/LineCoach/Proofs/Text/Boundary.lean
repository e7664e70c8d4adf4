import Mathlib.Data.List.TakeWhile
import LineCoach.Concrete.Source

/-!
# Points between characters

A point between two characters of a text is told by the text before it: the row is the number of
newlines there, and the column counts what follows the last of them, in bytes for the grammar and
in characters for people. The position that is computed from the first is the second, and of two
points the one that comes first in bytes comes first in characters.
-/

namespace LineCoach.Text

open LineCoach.Concrete (Point Source)
open LineCoach.Tree (Position)

theorem byteLength_append (first second : List Char) :
    byteLength (first ++ second) = byteLength first + byteLength second := by
  induction first with
  | nil => exact (Nat.zero_add _).symm
  | cons c rest ih => rw [List.cons_append, byteLength, ih, byteLength, Nat.add_assoc]

/-- Some text has some bytes. -/
theorem byteLength_pos {text : List Char} (h : text ≠ []) : 0 < byteLength text := by
  cases text with
  | nil => exact absurd rfl h
  | cons c rest =>
    have hsize := c.utf8Size_pos
    rw [byteLength]
    omega

/-- As many bytes as the front of a text has are its front. -/
theorem takeBytes?_append (front back : List Char) :
    takeBytes? (byteLength front) (front ++ back) = some front := by
  induction front with
  | nil => rw [byteLength, takeBytes?]
  | cons c rest ih =>
    have hsize := c.utf8Size_pos
    obtain ⟨count, hcount⟩ :=
      Nat.exists_eq_succ_of_ne_zero (Nat.ne_of_gt (byteLength_pos (List.cons_ne_nil c rest)))
    have hrest : count + 1 - c.utf8Size = byteLength rest := by
      rw [byteLength] at hcount
      omega
    rw [hcount, List.cons_append, takeBytes?, if_pos (by rw [byteLength] at hcount; omega), hrest, ih]
    rfl

/-- The first bytes of a text are a front of it that has as many bytes, if there is one. -/
theorem takeBytes?_eq_some_iff {count : Nat} {text front : List Char} :
    takeBytes? count text = some front ↔ ∃ back, text = front ++ back ∧ byteLength front = count := by
  constructor
  · intro h
    fun_induction takeBytes? count text generalizing front with
    | case1 text =>
      cases h
      exact ⟨text, rfl, rfl⟩
    | case2 => cases h
    | case3 count c rest hle ih =>
      obtain ⟨more, hmore, rfl⟩ := Option.map_eq_some_iff.1 h
      obtain ⟨back, rfl, hlength⟩ := ih hmore
      refine ⟨back, rfl, ?_⟩
      rw [byteLength, hlength]
      omega
    | case4 => cases h
  · rintro ⟨back, rfl, rfl⟩
    exact takeBytes?_append front back

/-- Of two fronts of a text the one with fewer bytes is a front of the other. -/
theorem isPrefix_of_byteLength_le {text first second : List Char} (hfirst : first <+: text)
    (hsecond : second <+: text) (h : byteLength first ≤ byteLength second) : first <+: second := by
  rcases List.prefix_or_prefix_of_prefix hfirst hsecond with hprefix | ⟨more, rfl⟩
  · exact hprefix
  · rw [byteLength_append] at h
    have hmore : more = [] := by
      by_contra hne
      have hpos := byteLength_pos hne
      omega
    simp only [hmore, List.append_nil, List.prefix_rfl]

/-- What follows the last newline of a text. -/
def lastLine (text : List Char) : List Char :=
  (text.reverse.takeWhile (· ≠ '\n')).reverse

/-- A text that goes on without a newline goes on in its last line. -/
theorem lastLine_append_of_not_mem (first : List Char) {second : List Char} (h : '\n' ∉ second) :
    lastLine (first ++ second) = lastLine first ++ second := by
  have hkept : ∀ c ∈ second.reverse, decide (c ≠ '\n') = true := by
    intro c hc
    rw [decide_eq_true_eq]
    rintro rfl
    exact h (List.mem_reverse.1 hc)
  rw [lastLine, List.reverse_append, List.takeWhile_append_of_pos hkept, List.reverse_append,
    List.reverse_reverse, lastLine]

/-- A newline ends the last line. -/
theorem lastLine_newline_append (first second : List Char) :
    lastLine (first ++ '\n' :: second) = lastLine second := by
  rw [lastLine, List.reverse_append, List.reverse_cons, List.append_assoc, lastLine]
  congr 1
  induction second.reverse with
  | nil => rfl
  | cons c rest ih => rw [List.cons_append, List.takeWhile_cons, ih, List.takeWhile_cons]

/-- A text without a newline is its last line. -/
theorem lastLine_of_not_mem {text : List Char} (h : '\n' ∉ text) : lastLine text = text :=
  lastLine_append_of_not_mem [] h

theorem not_mem_lastLine (text : List Char) : '\n' ∉ lastLine text := by
  rw [lastLine, List.mem_reverse]
  intro hmem
  simpa using List.mem_takeWhile_imp hmem

/-- Before its last line a text is empty or ends in a newline. -/
theorem exists_append_lastLine (text : List Char) :
    ∃ before, text = before ++ lastLine text ∧ ∀ c ∈ before.getLast?, c = '\n' := by
  refine ⟨(text.reverse.dropWhile (· ≠ '\n')).reverse, ?_, ?_⟩
  · rw [lastLine, ← List.reverse_append, List.takeWhile_append_dropWhile, List.reverse_reverse]
  · intro c hc
    rw [List.getLast?_reverse, Option.mem_def] at hc
    have hfirst := List.head?_dropWhile_not (fun c => decide (c ≠ '\n')) text.reverse
    rw [hc] at hfirst
    simpa using hfirst

/-- The lines of a text whose front has a number of newlines: the one behind the last of them is
what the front has left, and what follows the front. -/
theorem getElem?_lineStarts (front back : List Char) :
    (lineStarts (front ++ back))[front.count '\n']? = some (lastLine front ++ back) := by
  induction front with
  | nil => rfl
  | cons c rest ih =>
    by_cases hc : c = '\n'
    · subst hc
      rw [List.count_cons_self, List.cons_append, lineStarts, List.getElem?_cons_succ, afterNewlines,
        if_pos rfl, ← lineStarts, ih, ← lastLine_newline_append []]
      rfl
    · have hcount : (c :: rest).count '\n' = rest.count '\n' := List.count_cons_of_ne hc
      have hafter : afterNewlines (c :: (rest ++ back)) = afterNewlines (rest ++ back) := by
        rw [afterNewlines, if_neg hc]
      rw [hcount, List.cons_append, lineStarts, hafter]
      rw [lineStarts] at ih
      by_cases hrest : '\n' ∈ rest
      · -- a later newline begins the line, so that both texts have the same one
        obtain ⟨before, after, rfl⟩ := List.append_of_mem hrest
        obtain ⟨row, hrow⟩ := Nat.exists_eq_succ_of_ne_zero (Nat.ne_of_gt (List.count_pos_iff.2 hrest))
        rw [hrow, List.getElem?_cons_succ] at ih ⊢
        rw [ih, ← List.cons_append, lastLine_newline_append, lastLine_newline_append]
      · have hall : '\n' ∉ c :: rest := by simp [Ne.symm hc, hrest]
        rw [List.count_eq_zero.2 hrest, lastLine_of_not_mem hall]
        rfl

/-- The point behind a front of a text, as the grammar counts. -/
def pointAfter (front : List Char) : Point :=
  ⟨front.count '\n', byteLength (lastLine front)⟩

/-- The position behind a front of a text, as people count. -/
def positionAfter (front : List Char) : Position :=
  ⟨front.count '\n' + 1, (lastLine front).length⟩

/-- The position of the point behind a front of a text is the position behind it. -/
theorem position_pointAfter {content : String} {front back : List Char}
    (h : content.toList = front ++ back) :
    (Source.ofString content).position (pointAfter front) = positionAfter front := by
  have hline : (Source.ofString content).lines[(pointAfter front).row]? =
      some (lastLine front ++ back) := by
    rw [Source.ofString, List.getElem?_toArray, h]
    exact getElem?_lineStarts front back
  have hcolumn : takeBytes? (pointAfter front).column (lastLine front ++ back) =
      some (lastLine front) := takeBytes?_append _ _
  simp only [Source.position, hline, Option.getD_some, hcolumn]
  rfl

/-- A longer front of a text has a later position behind it. -/
theorem positionAfter_mono {first second : List Char} (h : first <+: second) :
    positionAfter first ≤ positionAfter second := by
  obtain ⟨more, rfl⟩ := h
  by_cases hnewline : '\n' ∈ more
  · left
    have hpos := List.count_pos_iff.2 hnewline
    simp only [positionAfter, List.count_append]
    omega
  · right
    simp only [positionAfter, List.count_append, List.count_eq_zero.2 hnewline,
      lastLine_append_of_not_mem first hnewline, List.length_append]
    exact ⟨trivial, Nat.le_add_right _ _⟩

/-- The byte `offset` of a text lies between two characters, or at one of its ends, and `point` is
its row and byte column: the row counts the newlines before it, the column the bytes since the last
of them. -/
def PointAt (text : List Char) (offset : Nat) (point : Point) : Prop :=
  ∃ front back, text = front ++ back ∧ byteLength front = offset ∧ pointAfter front = point

instance (text : List Char) (offset : Nat) (point : Point) : Decidable (PointAt text offset point) :=
  decidable_of_iff ((takeBytes? offset text).map pointAfter = some point) <| by
    simp only [Option.map_eq_some_iff, takeBytes?_eq_some_iff, PointAt, exists_and_right, and_assoc]

/-- Of two points the one with the smaller byte offset has the smaller position. -/
theorem PointAt.position_le {content : String} {offset later : Nat} {point other : Point}
    (hpoint : PointAt content.toList offset point) (hother : PointAt content.toList later other)
    (h : offset ≤ later) :
    (Source.ofString content).position point ≤ (Source.ofString content).position other := by
  obtain ⟨front, back, htext, rfl, rfl⟩ := hpoint
  obtain ⟨front', back', htext', rfl, rfl⟩ := hother
  rw [position_pointAfter htext, position_pointAfter htext']
  exact positionAfter_mono (isPrefix_of_byteLength_le ⟨back, htext.symm⟩ ⟨back', htext'.symm⟩ h)

end LineCoach.Text
