import LineCoach.Classifier.LongComment
import LineCoach.Proofs.Concrete.Kept
import LineCoach.Proofs.Concrete.Spans
import LineCoach.Proofs.Text.Positions
import LineCoach.Proofs.Tree.SameLine

/-!
# Lines that hold nothing but a comment

A line is taken for a mere comment when the comment is the only node that starts on it. The nodes
are those that lowering keeps, so that text in front of the comment goes unseen when it belongs to a
token that is dropped, such as a closing bracket, or to one that starts on an earlier line. These
are the only ways: a token that is kept and starts on the line would have been found first. So the
verdict is right exactly when no unseen token reaches the line in front of the comment.
-/

namespace LineCoach

open LineCoach.Tree (Position)

namespace Text

open LineCoach.Concrete (Point Source)

/-- All characters before a position on its line are blank. -/
def BlankBefore (content : String) (position : Position) : Prop :=
  ∀ line ∈ lines content, line.number = position.line →
    ∀ c ∈ line.text.toList.take position.column, isBlank c = true

-- the characters of the line are tested, not all characters that there are
instance (content : String) (position : Position) : Decidable (BlankBefore content position) :=
  decidable_of_iff (∀ line ∈ lines content, line.number = position.line →
    (line.text.toList.take position.column).all isBlank = true) (by simp [BlankBefore])

/-- A character that is not blank stands behind `front`, before a position on its line. -/
structure InkBefore (text : List Char) (position : Position) (front : List Char) : Prop where
  /-- The character is not blank. -/
  ink : ∃ c rest, text = front ++ c :: rest ∧ isBlank c = false
  /-- The character is on the line of the position. -/
  line : (positionAfter front).line = position.line
  /-- The character comes first. -/
  column : (positionAfter front).column < position.column

/-- What comes before a point on its line is blank when no character says otherwise. -/
theorem blankBefore_iff {content : String} {offset : Nat} {point : Point}
    (h : PointAt content.toList offset point) :
    BlankBefore content ((Source.ofString content).position point) ↔
      ∀ front, ¬ InkBefore content.toList ((Source.ofString content).position point) front := by
  obtain ⟨stop, back, htext, rfl, rfl⟩ := h
  rw [position_pointAfter htext]
  constructor
  · rintro hblank front ⟨⟨c, rest, hfront, hink⟩, hline, hcolumn⟩
    obtain ⟨before, part, piece, hpiece, rfl, hpart, hinside⟩ := exists_pieceAt hfront
    rw [hpiece.positionAfter_eq hpart] at hline hcolumn
    have hmem : (⟨before.count '\n' + 1, String.ofList piece⟩ : Line) ∈ lines content := by
      rw [mem_lines_iff]
      exact ⟨before, ⟨by rwa [String.toList_ofList], rfl⟩⟩
    have htaken : c ∈ piece.take (positionAfter stop).column := by
      have hreach : part ++ [c] <+: piece.take (positionAfter stop).column := by
        rw [List.prefix_take_iff, List.length_append]
        exact ⟨hinside, hcolumn⟩
      exact hreach.subset (List.mem_append_right _ List.mem_cons_self)
    have hc := hblank _ hmem hline c (by rwa [String.toList_ofList])
    rw [hink] at hc
    cases hc
  · intro hnone line hmem hnumber c hc
    by_contra hink
    obtain ⟨before, hline⟩ := (mem_lines_iff content line).1 hmem
    rw [hline.number, positionAfter, Nat.add_right_cancel_iff] at hnumber
    obtain ⟨part, rfl, hpiece, hpart⟩ :=
      hline.exists_part_of_count_eq ⟨back, htext.symm⟩ hnumber.symm
    rw [hline.positionAfter_eq hpart] at hc hnone
    rw [← List.prefix_iff_eq_take.1 hpiece] at hc
    obtain ⟨first, more, rfl⟩ := List.append_of_mem hc
    rw [List.mem_append, not_or] at hpart
    refine hnone (before ++ first)
      ⟨⟨c, more ++ back, by simp [htext], Bool.eq_false_iff.2 hink⟩, ?_, ?_⟩
    · rw [hline.positionAfter_eq hpart.1]
    · rw [hline.positionAfter_eq hpart.1, List.length_append, List.length_cons]
      exact Nat.lt_add_of_pos_right (Nat.succ_pos _)

end Text

namespace Concrete

open LineCoach.Text (InkBefore PointAt byteLength isBlank pointAfter positionAfter position_pointAfter)

namespace Node

/-- The tokens of a concrete tree: its parts without children. -/
def leaves (n : Node) : List Node :=
  n.parts.filter fun part => part.children.isEmpty

/-- The byte `offset` belongs to the node. -/
def Covers (n : Node) (offset : Nat) : Prop :=
  n.info.startByte ≤ offset ∧ offset < n.info.endByte

instance (n : Node) (offset : Nat) : Decidable (n.Covers offset) :=
  inferInstanceAs (Decidable (_ ∧ _))

/-- Every character that is not blank belongs to a token. -/
def CoversInk (text : List Char) (n : Node) : Prop :=
  ∀ front c rest, text = front ++ c :: rest → isBlank c = false →
    ∃ leaf ∈ n.leaves, leaf.Covers (byteLength front)

instance (text : List Char) (n : Node) : Decidable (n.CoversInk text) :=
  decidable_of_iff
    (∀ (place : Nat) (h : place < text.length), isBlank text[place] = false →
      ∃ leaf ∈ n.leaves, leaf.Covers (byteLength (text.take place))) <| by
    constructor
    · rintro h front c rest rfl hink
      have hcovered := h front.length (by simp) (by simpa using hink)
      rwa [List.take_left] at hcovered
    · intro h place hplace hink
      exact h _ _ (text.drop (place + 1)) (by simp) hink

/-- The lowered tree shows a token on a line: the token is kept, and it starts there. -/
def ShownOn (leaf : Node) (source : Source) (root : Node) (line : Nat) : Prop :=
  leaf ∈ keptAll root.children ∧ (source.span leaf).start.line = line

end Node

variable {content : String} {root : Node} {line : Nat} {anchor : Tree.Node}

/-- The first node of a line starts where a concrete node starts. -/
theorem exists_point_of_locate (hfits : root.Fits content.toList)
    (h : (lower (Source.ofString content) root).locate line = .ok anchor) :
    ∃ offset point, PointAt content.toList offset point ∧
      anchor.span.start = (Source.ofString content).position point := by
  rw [Tree.locate_eq_ok_iff] at h
  have hmem := List.mem_of_mem_filter (List.mem_of_head? h)
  obtain ⟨part, hpart, hsays⟩ := exists_kept_of_mem_drop hmem
  have hspan : anchor.span = (Source.ofString content).span part := congrArg Tree.Content.span hsays
  exact ⟨_, _, (hfits part (Node.mem_parts_of_mem_keptAll hpart)).start, by rw [hspan]; rfl⟩

/-- A token that is shown on a line has no text there in front of the first node of the line. -/
theorem not_shownOn_of_inkBefore (hfits : root.Fits content.toList)
    (hlocated : (lower (Source.ofString content) root).locate line = .ok anchor)
    {front : List Char} (hink : InkBefore content.toList anchor.span.start front) {leaf : Node}
    (hcovers : leaf.Covers (byteLength front)) :
    ¬ leaf.ShownOn (Source.ofString content) root line := by
  rintro ⟨hkept, hline⟩
  obtain ⟨node, hnode, hsays⟩ := exists_stored_of_mem_keptAll (Source.ofString content) hkept
  have hspan : node.span = (Source.ofString content).span leaf := congrArg Tree.Content.span hsays
  have hordered : (lower (Source.ofString content) root).nodes.toList.Pairwise
      fun first second => first.span.start ≤ second.span.start := by
    rw [toList_nodes_lower]
    exact (nested_loweredRoot hfits).starts_ordered
  have hstarts : (lower (Source.ofString content) root).StartsOn line node := by
    rw [Tree.mem_drop_iff] at hnode
    refine ⟨hnode.1, hnode.2, ?_⟩
    rw [Tree.Node.startLine, hspan, hline]
  have hfirst := Tree.start_le_of_startsOn hordered hlocated hstarts
  -- the token starts no later than the character, which comes before the first node
  have hbefore : node.span.start ≤ positionAfter front := by
    obtain ⟨c, rest, hfront, -⟩ := hink.ink
    have hstart := (hfits leaf (Node.mem_parts_of_mem_keptAll hkept)).start
    rw [hspan, ← position_pointAfter hfront]
    exact hstart.position_le ⟨front, c :: rest, hfront, rfl, rfl⟩ hcovers.1
  rcases hfirst.trans hbefore with hlt | ⟨-, hle⟩
  · rw [hink.line] at hlt
    exact absurd hlt (Nat.lt_irrefl _)
  · exact absurd hink.column (Nat.not_lt.2 hle)

end Concrete

namespace LongComment

open LineCoach.Concrete (Node Source lower)
open LineCoach.Text (BlankBefore InkBefore byteLength)

/-- The verdict that a line is a comment is drawn from a comment that is alone. -/
theorem eq_singleton_of_found {nodes : List Tree.Node} (h : found nodes = [.comment]) :
    ∃ only, nodes = [only] ∧ only.is .comment = true := by
  match nodes with
  | [] => cases h
  | [only] =>
    rw [found] at h
    split at h
    · next hkind => exact ⟨only, rfl, hkind⟩
    · cases h
  | first :: second :: more =>
    rw [found] at h
    split at h <;> cases h

/-- In a tree whose tokens cover the text, a line that is found to be a comment starts with a
comment node, and nothing but blanks comes before it exactly when every token with text there is one
that the tree shows on the line: none is dropped, and none starts on an earlier line. -/
theorem comment_is_alone_iff {content : String} {root : Node} (hfits : root.Fits content.toList)
    (hcovers : root.CoversInk content.toList) {location : Location} {anchor : Tree.Node}
    (hlocated : (lower (Source.ofString content) root).locate location.line = .ok anchor)
    (hfound : classifier.classify ⟨location, anchor, lower (Source.ofString content) root⟩ =
      .ok [.comment]) :
    anchor.is .comment = true ∧
      (BlankBefore content anchor.span.start ↔
        ∀ front, InkBefore content.toList anchor.span.start front →
          ∀ leaf ∈ root.leaves, leaf.Covers (byteLength front) →
            leaf.ShownOn (Source.ofString content) root location.line) := by
  obtain ⟨offset, point, hpoint, hstart⟩ := Concrete.exists_point_of_locate hfits hlocated
  obtain ⟨only, hnodes, hkind⟩ := eq_singleton_of_found (Except.ok.inj hfound)
  have honly : anchor = only := (List.cons.inj hnodes).1
  refine ⟨honly ▸ hkind, ?_⟩
  rw [hstart, Text.blankBefore_iff hpoint, ← hstart]
  constructor
  · intro hnone front hink
    exact absurd hink (hnone front)
  · intro hshown front hink
    obtain ⟨c, rest, hfront, hc⟩ := hink.ink
    obtain ⟨leaf, hleaf, hcovered⟩ := hcovers front c rest hfront hc
    exact Concrete.not_shownOn_of_inkBefore hfits hlocated hink hcovered
      (hshown front hink leaf hleaf hcovered)

namespace Sample

open LineCoach.Concrete.Sample (part token)

/-- A value between parentheses on three lines, with a comment in front of it. -/
def inner : Node :=
  part "" "module" (0, ⟨0, 0⟩) (18, ⟨3, 0⟩) [
    part "" "expression_statement" (0, ⟨0, 0⟩) (17, ⟨2, 4⟩) [
      part "" "assignment" (0, ⟨0, 0⟩) (17, ⟨2, 4⟩) [
        part "left" "identifier" (0, ⟨0, 0⟩) (1, ⟨0, 1⟩) [],
        token "=" (2, ⟨0, 2⟩) (3, ⟨0, 3⟩),
        part "right" "parenthesized_expression" (4, ⟨0, 4⟩) (17, ⟨2, 4⟩) [
          token "(" (4, ⟨0, 4⟩) (5, ⟨0, 5⟩),
          part "" "comment" (8, ⟨1, 2⟩) (12, ⟨1, 6⟩) [],
          part "" "integer" (15, ⟨2, 2⟩) (16, ⟨2, 3⟩) [],
          token ")" (16, ⟨2, 3⟩) (17, ⟨2, 4⟩)]]]]

/-- The text of that tree. -/
def innerText : String := "x = (\n  # é\n  1)\n"

/-- The stored node of the comment in front of the value. -/
def innerComment : Tree.Node where
  id := 4
  kind := .comment
  label := "comment"
  span := ⟨⟨2, 2⟩, ⟨2, 5⟩⟩
  parent := some 3
  children := []
  subtreeEnd := 5
  detail := none

end Sample

/-- A comment on a line of its own between parentheses is all that its line holds. -/
theorem comment_is_alone_iff_sample :
    Sample.inner.Fits Sample.innerText.toList ∧ Sample.inner.CoversInk Sample.innerText.toList ∧
      (lower (Source.ofString Sample.innerText) Sample.inner).locate 2 = .ok Sample.innerComment ∧
      classifier.classify ⟨⟨⟨"test.py"⟩, 2, "  # é\n"⟩, Sample.innerComment,
        lower (Source.ofString Sample.innerText) Sample.inner⟩ = .ok [.comment] ∧
      BlankBefore Sample.innerText Sample.innerComment.span.start ∧
      ∀ front, InkBefore Sample.innerText.toList Sample.innerComment.span.start front →
        ∀ leaf ∈ Sample.inner.leaves, leaf.Covers (byteLength front) →
          leaf.ShownOn (Source.ofString Sample.innerText) Sample.inner 2 := by
  have hfits : Sample.inner.Fits Sample.innerText.toList := by decide
  have hcovers : Sample.inner.CoversInk Sample.innerText.toList := by decide
  have hlocated : (lower (Source.ofString Sample.innerText) Sample.inner).locate 2 =
      .ok Sample.innerComment := by decide +kernel
  have hfound : classifier.classify ⟨⟨⟨"test.py"⟩, 2, "  # é\n"⟩, Sample.innerComment,
      lower (Source.ofString Sample.innerText) Sample.inner⟩ = .ok [.comment] := by decide +kernel
  have hblank : BlankBefore Sample.innerText Sample.innerComment.span.start := by decide
  exact ⟨hfits, hcovers, hlocated, hfound, hblank,
    (comment_is_alone_iff hfits hcovers hlocated hfound).2.1 hblank⟩

namespace Sample

open LineCoach.Concrete.Sample (part token)

/-- A value between parentheses, with a comment behind the closing one on the third line. -/
def closing : Node :=
  part "" "module" (0, ⟨0, 0⟩) (17, ⟨3, 0⟩) [
    part "" "expression_statement" (0, ⟨0, 0⟩) (11, ⟨2, 1⟩) [
      part "" "assignment" (0, ⟨0, 0⟩) (11, ⟨2, 1⟩) [
        part "left" "identifier" (0, ⟨0, 0⟩) (1, ⟨0, 1⟩) [],
        token "=" (2, ⟨0, 2⟩) (3, ⟨0, 3⟩),
        part "right" "parenthesized_expression" (4, ⟨0, 4⟩) (11, ⟨2, 1⟩) [
          token "(" (4, ⟨0, 4⟩) (5, ⟨0, 5⟩),
          part "" "integer" (8, ⟨1, 2⟩) (9, ⟨1, 3⟩) [],
          token ")" (10, ⟨2, 0⟩) (11, ⟨2, 1⟩)]]],
    part "" "comment" (13, ⟨2, 3⟩) (16, ⟨2, 6⟩) []]

/-- The text of that tree. -/
def closingText : String := "x = (\n  1\n)  # t\n"

/-- The stored node of the comment. -/
def comment : Tree.Node where
  id := 5
  kind := .comment
  label := "comment"
  span := ⟨⟨3, 3⟩, ⟨3, 6⟩⟩
  parent := some 0
  children := []
  subtreeEnd := 6
  detail := none

end Sample

/-- A comment behind a closing parenthesis is found to be all that its line holds. -/
theorem comment_behind_parenthesis :
    Sample.closing.Fits Sample.closingText.toList ∧
      Sample.closing.CoversInk Sample.closingText.toList ∧
      (lower (Source.ofString Sample.closingText) Sample.closing).locate 3 = .ok Sample.comment ∧
      classifier.classify ⟨⟨⟨"test.py"⟩, 3, ")  # t\n"⟩, Sample.comment,
        lower (Source.ofString Sample.closingText) Sample.closing⟩ = .ok [.comment] ∧
      ¬ BlankBefore Sample.closingText Sample.comment.span.start := by
  refine ⟨by decide, by decide, ?_, ?_, by decide⟩
  · decide +kernel
  · decide +kernel

end LongComment

end LineCoach
