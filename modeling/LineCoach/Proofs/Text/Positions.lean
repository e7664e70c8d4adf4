import LineCoach.Proofs.Text.Boundary
import LineCoach.Proofs.Text.Lines

/-!
# Positions in the lines of the scanner

The scanner and the conversion of points number lines and measure columns on their own: one cuts
the text and counts pieces, the other looks up what follows each newline and counts characters up to
a byte. They mean the same lines. A point lies inside a line exactly when its row gives the line's
number, and then its column says how many characters of the line come before it.
-/

namespace LineCoach.Text

open LineCoach.Concrete (Point Source)

/-- The byte `offset` lies inside a piece that stands behind `before`: in front of one of its
characters, or at its end if no newline ends it. -/
def Holds (before piece : List Char) (offset : Nat) : Prop :=
  byteLength before ≤ offset ∧
    (offset < byteLength (before ++ piece) ∨
      offset = byteLength (before ++ piece) ∧ '\n' ∉ piece)

instance (before piece : List Char) (offset : Nat) : Decidable (Holds before piece offset) :=
  inferInstanceAs (Decidable (_ ∧ _))

/-- A front of a text that has as many bytes is the text. -/
theorem eq_of_isPrefix_of_byteLength_le {first second : List Char} (h : first <+: second)
    (hle : byteLength second ≤ byteLength first) : first = second :=
  h.eq_of_length_le (isPrefix_of_byteLength_le List.prefix_rfl h hle).length_le

namespace PieceAt

variable {text before piece front : List Char}

/-- Where a line starts, nothing follows the last newline. -/
theorem lastLine_before (h : PieceAt text before piece) : lastLine before = [] := by
  rcases List.eq_nil_or_concat before with rfl | ⟨rest, c, rfl⟩
  · rfl
  · have hlast := h.opened c (by simp)
    rw [List.concat_eq_append, hlast, lastLine_newline_append]
    rfl

/-- Where a front of the text reaches into a line, but not behind its newline, it is told by the
part of the line that it takes. -/
theorem positionAfter_eq {part : List Char} (h : PieceAt text before piece) (hpart : '\n' ∉ part) :
    positionAfter (before ++ part) = ⟨before.count '\n' + 1, part.length⟩ := by
  rw [positionAfter, List.count_append, List.count_eq_zero.2 hpart,
    lastLine_append_of_not_mem _ hpart, h.lastLine_before]
  rfl

/-- What follows the start of a line up to some place before the next newline is in the line. -/
theorem isPrefix_of_not_mem {part after : List Char} (h : PieceAt text before piece)
    (htext : text = before ++ (part ++ after)) (hpart : '\n' ∉ part) : part <+: piece := by
  have hpiece : piece <+: part ++ after := by
    rw [← List.prefix_append_right_inj before, ← htext]
    exact h.within
  rcases List.prefix_or_prefix_of_prefix (List.prefix_append part after) hpiece with hle | hge
  · exact hle
  · rcases h.closed with ⟨body, -, rfl⟩ | ⟨-, -, hend⟩
    · exact absurd (hge.subset (List.mem_append_right _ List.mem_cons_self)) hpart
    · rw [← hend, List.append_cancel_left_eq] at htext
      exact ⟨after, htext.symm⟩

/-- A front of the text that stops inside a line goes into it, and not behind its newline. -/
theorem exists_part_of_holds (h : PieceAt text before piece) (hfront : front <+: text)
    (hholds : Holds before piece (byteLength front)) :
    ∃ part, front = before ++ part ∧ part <+: piece ∧ '\n' ∉ part := by
  obtain ⟨hstart, hstop⟩ := hholds
  have hbefore : before <+: text := (List.prefix_append _ _).trans h.within
  obtain ⟨part, rfl⟩ := isPrefix_of_byteLength_le hbefore hfront hstart
  have hle : byteLength (before ++ part) ≤ byteLength (before ++ piece) := by omega
  have hpart := isPrefix_of_byteLength_le hfront h.within hle
  rw [List.prefix_append_right_inj] at hpart
  refine ⟨part, rfl, hpart, ?_⟩
  rcases h.closed with ⟨body, hbody, rfl⟩ | ⟨hnone, -, -⟩
  · rcases List.prefix_concat_iff.1 hpart with rfl | hshort
    · -- all of a line with a newline would end behind the line
      rcases hstop with hlt | ⟨-, hnone⟩
      · exact absurd hlt (Nat.lt_irrefl _)
      · exact hnone
    · exact fun hmem => hbody (hshort.subset hmem)
  · exact fun hmem => hnone (hpart.subset hmem)

/-- A front of the text with as many newlines as there are before a line goes into the line. -/
theorem exists_part_of_count_eq (h : PieceAt text before piece) (hfront : front <+: text)
    (hcount : front.count '\n' = before.count '\n') :
    ∃ part, front = before ++ part ∧ part <+: piece ∧ '\n' ∉ part := by
  have hbefore : before <+: text := (List.prefix_append _ _).trans h.within
  have hinside : before <+: front := by
    rcases List.prefix_or_prefix_of_prefix hbefore hfront with hle | ⟨more, rfl⟩
    · exact hle
    · -- a front that stops earlier misses the newline in front of the line
      rcases List.eq_nil_or_concat more with rfl | ⟨rest, c, rfl⟩
      · simp
      · have hlast := h.opened c (by simp)
        rw [List.concat_eq_append, hlast, List.count_append, List.count_append,
          List.count_cons_self] at hcount
        omega
  obtain ⟨part, rfl⟩ := hinside
  obtain ⟨after, htext⟩ := hfront
  have hpart : '\n' ∉ part := by
    rw [← List.count_eq_zero]
    rw [List.count_append] at hcount
    omega
  rw [List.append_assoc] at htext
  exact ⟨part, rfl, h.isPrefix_of_not_mem htext.symm hpart, hpart⟩

/-- A part of a line that stops before the newline ends inside the line. -/
theorem holds_of_part {part : List Char} (hpiece : part <+: piece) (hpart : '\n' ∉ part) :
    Holds before piece (byteLength (before ++ part)) := by
  have hle : before ++ part <+: before ++ piece := (List.prefix_append_right_inj before).2 hpiece
  refine ⟨by rw [byteLength_append]; omega, ?_⟩
  rcases Nat.lt_or_ge (byteLength (before ++ part)) (byteLength (before ++ piece)) with hlt | hge
  · exact .inl hlt
  · have heq := eq_of_isPrefix_of_byteLength_le hle hge
    rw [List.append_cancel_left_eq] at heq
    subst heq
    exact .inr ⟨rfl, hpart⟩

end PieceAt

/-- Every character of a text stands in a line, behind some part of the line without a newline. -/
theorem exists_pieceAt {text front rest : List Char} {c : Char} (h : text = front ++ c :: rest) :
    ∃ before part piece, PieceAt text before piece ∧ front = before ++ part ∧ '\n' ∉ part ∧
      part ++ [c] <+: piece := by
  obtain ⟨before, hfront, hopened⟩ := exists_append_lastLine front
  have hpart := not_mem_lastLine front
  -- the line goes on to the first newline that follows, or to the end of the text
  by_cases hmem : '\n' ∈ c :: rest
  · obtain ⟨body, after, hbody, hnone⟩ := List.eq_append_cons_of_mem hmem
    have hwhole : lastLine front ++ (body ++ ['\n']) = (lastLine front ++ body) ++ ['\n'] :=
      (List.append_assoc _ _ _).symm
    refine ⟨before, lastLine front, lastLine front ++ (body ++ ['\n']),
      ⟨hopened, ⟨after, ?_⟩, .inl ⟨_, ?_, hwhole⟩⟩, hfront, hpart, ?_⟩
    · rw [← List.append_assoc before, ← hfront, h, hbody]
      simp
    · rw [List.mem_append, not_or]
      exact ⟨hpart, hnone⟩
    · rw [List.prefix_append_right_inj]
      apply List.prefix_of_prefix_length_le ⟨rest, rfl⟩ ⟨after, _⟩
      · simp
      · rw [List.singleton_append, hbody]
        simp
  · refine ⟨before, lastLine front, lastLine front ++ c :: rest, ⟨hopened, ⟨[], ?_⟩, .inr ⟨?_, ?_, ?_⟩⟩,
      hfront, hpart, ?_⟩
    · rw [← List.append_assoc before, ← hfront, h, List.append_nil]
    · rw [List.mem_append, not_or]
      exact ⟨hpart, hmem⟩
    · exact List.append_ne_nil_of_right_ne_nil _ (List.cons_ne_nil _ _)
    · rw [← List.append_assoc before, ← hfront, h]
    · simp

/-- A point before the end of a text lies inside a line. -/
theorem exists_holds {content : String} {offset : Nat} {point : Point}
    (h : PointAt content.toList offset point) (hlt : offset < byteLength content.toList) :
    ∃ before line, LineAt content.toList before line ∧ Holds before line.text.toList offset := by
  obtain ⟨front, back, htext, rfl, rfl⟩ := h
  cases back with
  | nil =>
    rw [htext, List.append_nil] at hlt
    exact absurd hlt (Nat.lt_irrefl _)
  | cons c rest =>
    obtain ⟨before, part, piece, hpiece, rfl, hpart, hinside⟩ := exists_pieceAt htext
    refine ⟨before, ⟨before.count '\n' + 1, String.ofList piece⟩, ⟨?_, rfl⟩, ?_⟩
    · rwa [String.toList_ofList]
    · rw [String.toList_ofList]
      exact PieceAt.holds_of_part ((List.prefix_append _ _).trans hinside) hpart

/-- A point lies inside the line that its row gives a number to. -/
theorem LineAt.holds_iff {text before : List Char} {line : Line} {offset : Nat} {point : Point}
    (h : LineAt text before line) (hpoint : PointAt text offset point) :
    Holds before line.text.toList offset ↔ line.number = point.row + 1 := by
  obtain ⟨front, back, htext, rfl, rfl⟩ := hpoint
  have hfront : front <+: text := ⟨back, htext.symm⟩
  rw [h.number, pointAfter, Nat.add_right_cancel_iff]
  constructor
  · intro hholds
    obtain ⟨part, rfl, -, hpart⟩ := h.exists_part_of_holds hfront hholds
    rw [List.count_append, List.count_eq_zero.2 hpart, Nat.add_zero]
  · intro hcount
    obtain ⟨part, rfl, hpiece, hpart⟩ := h.exists_part_of_count_eq hfront hcount.symm
    exact PieceAt.holds_of_part hpiece hpart

/-- The column of a point inside a line counts the characters of the line before the point. -/
theorem LineAt.takeBytes?_eq {content : String} {before : List Char} {line : Line} {offset : Nat}
    {point : Point} (h : LineAt content.toList before line)
    (hpoint : PointAt content.toList offset point) (hholds : Holds before line.text.toList offset) :
    ((Source.ofString content).position point).column ≤ line.length ∧
      takeBytes? offset content.toList = some (before ++
        line.text.toList.take ((Source.ofString content).position point).column) := by
  obtain ⟨front, back, htext, rfl, rfl⟩ := hpoint
  obtain ⟨part, rfl, hpiece, hpart⟩ := h.exists_part_of_holds ⟨back, htext.symm⟩ hholds
  rw [position_pointAfter htext, h.positionAfter_eq hpart]
  refine ⟨?_, ?_⟩
  · rw [Line.length, ← String.length_toList]
    exact hpiece.length_le
  · rw [← List.prefix_iff_eq_take.1 hpiece, htext]
    exact takeBytes?_append _ _

/-- Points are converted to the coordinates of the scanner: a point between two characters of a text
lies inside some line unless it is at the end, and inside those lines exactly that have the number
of its row, counted from one; the text before the point is then what comes before the line together
with as many characters of the line as the column says. The scanner finds the lines with more
characters than its limit, in ascending order, and with no limit all of them, which put together are
the text. -/
theorem position_agrees_with_lines (content : String) :
    (∀ offset point, PointAt content.toList offset point →
      ((Source.ofString content).position point).line = point.row + 1 ∧
      (offset < byteLength content.toList →
        ∃ before line, LineAt content.toList before line ∧
          Holds before line.text.toList offset) ∧
      ∀ before line, LineAt content.toList before line →
        (Holds before line.text.toList offset ↔ line.number = point.row + 1) ∧
        (Holds before line.text.toList offset →
          ((Source.ofString content).position point).column ≤ line.length ∧
          takeBytes? offset content.toList = some (before ++
            line.text.toList.take ((Source.ofString content).position point).column))) ∧
    (∀ limit,
      ((longLines content limit).Pairwise fun line later => line.number < later.number) ∧
      ∀ line, line ∈ longLines content limit ↔
        limit < line.length ∧ ∃ before, LineAt content.toList before line) ∧
    (longLines content 0).flatMap (fun line => line.text.toList) = content.toList := by
  refine ⟨?_, ?_, ?_⟩
  · intro offset point hpoint
    refine ⟨rfl, exists_holds hpoint, ?_⟩
    intro before line hline
    exact ⟨hline.holds_iff hpoint, hline.takeBytes?_eq hpoint⟩
  · intro limit
    exact ⟨pairwise_longLines content limit, mem_longLines_iff content limit⟩
  · rw [longLines_zero, flatMap_lines]

/-- Behind a letter of two bytes in the first of three lines, the second of which is empty: the
column in bytes is three, and two characters of the line come before the point. -/
theorem position_agrees_with_lines_sample :
    PointAt "aé\r\n\nb".toList 3 ⟨0, 3⟩ ∧
      LineAt "aé\r\n\nb".toList [] ⟨1, "aé\r\n"⟩ ∧
      Holds [] "aé\r\n".toList 3 ∧
      ((Source.ofString "aé\r\n\nb").position ⟨0, 3⟩).column = 2 ∧
      takeBytes? 3 "aé\r\n\nb".toList = some ([] ++ "aé\r\n".toList.take
        ((Source.ofString "aé\r\n\nb").position ⟨0, 3⟩).column) ∧
      (longLines "aé\r\n\nb" 0).flatMap (fun line => line.text.toList) = "aé\r\n\nb".toList := by
  have hpoint : PointAt "aé\r\n\nb".toList 3 ⟨0, 3⟩ := by decide
  have hline : LineAt "aé\r\n\nb".toList [] ⟨1, "aé\r\n"⟩ :=
    ⟨⟨by simp, by decide, .inl ⟨['a', 'é', '\r'], by decide, by decide⟩⟩, rfl⟩
  have hholds : Holds [] "aé\r\n".toList 3 := by decide
  obtain ⟨hpositions, -, hjoined⟩ := position_agrees_with_lines "aé\r\n\nb"
  have htaken := (((hpositions 3 ⟨0, 3⟩ hpoint).2.2 [] ⟨1, "aé\r\n"⟩ hline).2 hholds).2
  exact ⟨hpoint, hline, hholds, by decide, htaken, hjoined⟩

end LineCoach.Text
