import LineCoach.Proofs.Concrete.Kept
import LineCoach.Proofs.Concrete.Spans
import LineCoach.Proofs.Tree.SameLine

/-!
# Literals of several lines

The inner parts of a string are dropped with all that is below them, so a string becomes one node
without children. No other node can start between its first and its last line: what is around it or
in front of it starts no later than the string itself, and what is behind it starts no sooner than
the string ends. This is a fact about bytes, proved along the concrete tree, and it is carried over
to lines by the order of positions.
-/

namespace LineCoach.Concrete

open LineCoach.Tree (Position Rose)

namespace Node

/-- The children of the node are tokens or inner parts of strings, so nothing below it is kept. -/
def Sealed (n : Node) : Prop :=
  ∀ child ∈ n.children, child.info.named = false ∨ child.kind ∈ stringPartKinds

instance (n : Node) : Decidable n.Sealed :=
  inferInstanceAs (Decidable (∀ child ∈ n.children, _))

/-- Nothing is kept of tokens and inner parts of strings. -/
theorem kept_eq_nil {n : Node} (h : n.info.named = false ∨ n.kind ∈ stringPartKinds) :
    n.kept = [] := by
  cases n with
  | node info children =>
    have hskip : (!info.named || stringPartKinds.contains info.kind) = true := by
      rw [Bool.or_eq_true, Bool.not_eq_true', List.contains_iff_mem]
      exact h
    rw [kept, if_pos hskip]

/-- Nothing is kept below a sealed node. -/
theorem Sealed.keptAll_eq_nil {n : Node} (h : n.Sealed) : keptAll n.children = [] := by
  rw [Sealed] at h
  generalize n.children = nodes at h
  induction nodes with
  | nil => rw [keptAll]
  | cons child rest ih =>
    rw [List.forall_mem_cons] at h
    rw [keptAll, kept_eq_nil h.1, ih h.2, List.append_nil]

/-- What is kept of a node is the node itself or is kept below it. -/
theorem eq_or_mem_keptAll {n other : Node} (h : other ∈ n.kept) :
    other = n ∨ other ∈ keptAll n.children := by
  cases n with
  | node info children =>
    rw [kept] at h
    split at h
    · cases h
    · split at h
      · exact .inr h
      · exact List.mem_cons.1 h

section Outside

variable {text : List Char} {part other : Node}

mutual

/-- The parts of a node lie inside it. -/
theorem Fits.part_inside :
    {n : Node} → n.Fits text → part ∈ n.parts →
      n.info.startByte ≤ part.info.startByte ∧ part.info.endByte ≤ n.info.endByte
  | node info children, h, hpart => by
    rw [parts] at hpart
    rcases List.mem_cons.1 hpart with rfl | hbelow
    · exact ⟨Nat.le_refl _, Nat.le_refl _⟩
    · obtain ⟨child, hchild, hstart, hstop⟩ :=
        exists_around children (fun _ hmem => h.child hmem) hbelow
      have hinside := h.sits.inside child hchild
      exact ⟨Nat.le_trans hinside.1 hstart, Nat.le_trans hstop hinside.2⟩

/-- The parts of nodes lie inside one of them each. -/
theorem exists_around :
    (nodes : List Node) → (∀ n ∈ nodes, n.Fits text) → part ∈ partsAll nodes →
      ∃ n ∈ nodes, n.info.startByte ≤ part.info.startByte ∧ part.info.endByte ≤ n.info.endByte
  | n :: rest, hfits, hpart => by
    rw [List.forall_mem_cons] at hfits
    rw [partsAll] at hpart
    rcases List.mem_append.1 hpart with hfirst | hrest
    · exact ⟨n, List.mem_cons_self, hfits.1.part_inside hfirst⟩
    · obtain ⟨around, hmem, hinside⟩ := exists_around rest hfits.2 hrest
      exact ⟨around, List.mem_cons_of_mem _ hmem, hinside⟩

end

mutual

/-- What is kept below a node does not start inside a sealed part of the node. -/
theorem keptBelow_outside (hsealed : part.Sealed) :
    {n : Node} → n.Fits text → part ∈ n.parts → other ∈ keptAll n.children →
      other.info.startByte ≤ part.info.startByte ∨ part.info.endByte ≤ other.info.startByte
  | node info children, h, hpart, hother => by
    rw [parts] at hpart
    rcases List.mem_cons.1 hpart with rfl | hbelow
    · rw [hsealed.keptAll_eq_nil] at hother
      cases hother
    · exact keptAll_outside hsealed children (fun _ hmem => h.child hmem) h.sits.apart hbelow hother

/-- What is kept of nodes that lie one behind the other does not start inside a sealed part of one
of them. -/
theorem keptAll_outside (hsealed : part.Sealed) :
    (nodes : List Node) → (∀ n ∈ nodes, n.Fits text) →
      (nodes.Pairwise fun first second => first.info.endByte ≤ second.info.startByte) →
      part ∈ partsAll nodes → other ∈ keptAll nodes →
      other.info.startByte ≤ part.info.startByte ∨ part.info.endByte ≤ other.info.startByte
  | n :: rest, hfits, hapart, hpart, hother => by
    rw [List.forall_mem_cons] at hfits
    rw [List.pairwise_cons] at hapart
    rw [partsAll] at hpart
    rw [keptAll] at hother
    rcases List.mem_append.1 hpart with hpart | hpart
    · rcases List.mem_append.1 hother with hother | hother
      · rcases eq_or_mem_keptAll hother with rfl | hbelow
        · exact .inl (hfits.1.part_inside hpart).1
        · exact keptBelow_outside hsealed hfits.1 hpart hbelow
      · -- the part is in the first node, and what is kept comes from one behind it
        obtain ⟨around, hmem, hinside⟩ :=
          exists_around rest hfits.2 ((keptAll_sublist rest).subset hother)
        have hbefore := (hfits.1.part_inside hpart).2
        exact .inr ((hbefore.trans (hapart.1 around hmem)).trans hinside.1)
    · rcases List.mem_append.1 hother with hother | hother
      · -- what is kept comes from the first node, and the part is in one behind it
        obtain ⟨around, hmem, hinside⟩ := exists_around rest hfits.2 hpart
        have hkept := (kept_sublist n).subset hother
        have hbefore := (hfits.1 other hkept).ordered.trans (hfits.1.part_inside hkept).2
        exact .inl ((hbefore.trans (hapart.1 around hmem)).trans hinside.1)
      · exact keptAll_outside hsealed rest hfits.2 hapart.2 hpart hother

end

end Outside

end Node

section Stored

variable {content : String} {root part : Node}

/-- A stored node other than the root is on no later line than the first one of a sealed part of the
tree, or on no earlier line than the last one. -/
theorem startLine_outside (hfits : root.Fits content.toList) (hpart : part ∈ root.parts)
    (hsealed : part.Sealed) {node : Tree.Node}
    (hnode : node ∈ (lower (Source.ofString content) root).nodes.toList.drop 1) :
    node.startLine ≤ ((Source.ofString content).span part).start.line ∨
      ((Source.ofString content).span part).stop.line ≤ node.startLine := by
  obtain ⟨other, hother, hsays⟩ := exists_kept_of_mem_drop hnode
  have hspan : node.span = (Source.ofString content).span other := congrArg Tree.Content.span hsays
  have hstart := (hfits other (Node.mem_parts_of_mem_keptAll hother)).start
  rw [Tree.Node.startLine, hspan]
  rcases Node.keptBelow_outside hsealed hfits hpart hother with hbefore | hbehind
  · exact .inl (Position.line_le (hstart.position_le (hfits part hpart).start hbefore))
  · exact .inr (Position.line_le ((hfits part hpart).stop.position_le hstart hbehind))

mutual

/-- Where a part of a node is kept, the tree of the part is in what the node leaves. -/
theorem exists_lowered_contains (source : Source) {part : Node} :
    {n : Node} → part ∈ n.kept → ∃ tree ∈ lowered source n,
      tree.Contains (.node (Concrete.content source part) (lowereds source part.children))
  | .node info children, h => by
    rw [Node.kept] at h
    rw [lowered]
    split at h
    · cases h
    · split at h
      · next hskip hwrapper =>
        rw [if_neg hskip, if_pos hwrapper]
        exact exists_lowereds_contains source children h
      · next hskip hwrapper =>
        rw [if_neg hskip, if_neg hwrapper]
        refine ⟨_, List.mem_singleton_self _, ?_⟩
        rcases List.mem_cons.1 h with rfl | hbelow
        · exact .refl
        · obtain ⟨tree, htree, hcontains⟩ := exists_lowereds_contains source children hbelow
          exact .head htree hcontains

theorem exists_lowereds_contains (source : Source) {part : Node} :
    (nodes : List Node) → part ∈ Node.keptAll nodes → ∃ tree ∈ lowereds source nodes,
      tree.Contains (.node (Concrete.content source part) (lowereds source part.children))
  | n :: rest, h => by
    rw [Node.keptAll] at h
    rw [lowereds]
    rcases List.mem_append.1 h with hfirst | hrest
    · obtain ⟨tree, htree, hcontains⟩ := exists_lowered_contains source hfirst
      exact ⟨tree, List.mem_append_left _ htree, hcontains⟩
    · obtain ⟨tree, htree, hcontains⟩ := exists_lowereds_contains source rest hrest
      exact ⟨tree, List.mem_append_right _ htree, hcontains⟩

end

/-- Where nothing is kept, no tree is left. -/
theorem lowereds_eq_nil (source : Source) {nodes : List Node} (h : Node.keptAll nodes = []) :
    lowereds source nodes = [] := by
  have hstored := map_content_lowereds source none 0 nodes
  rw [h, List.map_nil, List.map_eq_nil_iff] at hstored
  cases htrees : lowereds source nodes with
  | nil => rfl
  | cons tree rest =>
    rw [htrees, Rose.flattens, Rose.flatten_eq] at hstored
    cases hstored

/-- A sealed part that is kept is stored as one node with nothing below it. -/
theorem exists_leaf_of_sealed (source : Source) (hkept : part ∈ Node.keptAll root.children)
    (hsealed : part.Sealed) :
    ∃ node ∈ (lower source root).nodes.toList,
      node.content = Concrete.content source part ∧ (lower source root).subtree node = [node] := by
  obtain ⟨tree, htree, hcontains⟩ := exists_lowereds_contains source root.children hkept
  have hinside : (loweredRoot source root).Contains
      (.node (Concrete.content source part) (lowereds source part.children)) :=
    .head htree hcontains
  rw [lowereds_eq_nil source hsealed.keptAll_eq_nil] at hinside
  obtain ⟨parent, place, hstands⟩ := Tree.exists_standsAt_of_contains hinside
  rw [lower_eq_plantAll, build_plantAll]
  exact ⟨_, Tree.mem_of_get? (Tree.get?_of_standsAt hstands), rfl, Tree.subtree_of_standsAt hstands⟩

/-- On the line where a part that is kept starts, a node is found. -/
theorem exists_locate_of_kept (source : Source) (hkept : part ∈ Node.keptAll root.children) :
    ∃ anchor, (lower source root).locate (source.span part).start.line = .ok anchor := by
  obtain ⟨node, hnode, hsays⟩ := exists_stored_of_mem_keptAll source hkept
  have hspan : node.span = source.span part := congrArg Tree.Content.span hsays
  have hmem : node ∈ (lower source root).startingOn (source.span part).start.line := by
    rw [Tree.startingOn, List.mem_filter, decide_eq_true_eq, Tree.Node.startLine, hspan]
    exact ⟨hnode, rfl⟩
  obtain ⟨anchor, rest, hline⟩ := List.exists_cons_of_ne_nil (List.ne_nil_of_mem hmem)
  refine ⟨anchor, (Tree.locate_eq_ok_iff _ _ _).2 ?_⟩
  rw [hline, List.head?_cons]

end Stored

/-- In the tree of a text, no node starts on a line between the first and the last one of a part
that has only tokens and inner parts of strings right below it, as a string of several lines has,
whatever these hold and whatever stands around the part. If the part is kept, a node is found on its
first line, and it is stored as one node with nothing below it. -/
theorem locate_inside_literal {content : String} {root part : Node}
    (hfits : root.Fits content.toList) (hpart : part ∈ root.parts) (hsealed : part.Sealed) :
    (∀ line, ((Source.ofString content).span part).start.line < line →
      line < ((Source.ofString content).span part).stop.line →
      (lower (Source.ofString content) root).locate line = .error ⟨line⟩) ∧
    (part ∈ Node.keptAll root.children →
      (∃ anchor, (lower (Source.ofString content) root).locate
        ((Source.ofString content).span part).start.line = .ok anchor) ∧
      ∃ node ∈ (lower (Source.ofString content) root).nodes.toList,
        node.content = Concrete.content (Source.ofString content) part ∧
        (lower (Source.ofString content) root).subtree node = [node]) := by
  refine ⟨?_, fun hkept => ⟨exists_locate_of_kept _ hkept, exists_leaf_of_sealed _ hkept hsealed⟩⟩
  intro line hfirst hlast
  rw [Tree.locate_eq_error_iff, Tree.startingOn, List.filter_eq_nil_iff]
  intro node hnode
  have houtside := startLine_outside hfits hpart hsealed hnode
  rw [decide_eq_true_eq]
  omega

namespace Sample

/-- A string of three lines with an escape sequence alone on the second one. -/
def literal : Node :=
  part "right" "string" (4, ⟨0, 4⟩) (16, ⟨2, 4⟩) [
    part "" "string_start" (4, ⟨0, 4⟩) (7, ⟨0, 7⟩) [],
    part "" "string_content" (7, ⟨0, 7⟩) (13, ⟨2, 1⟩) [
      part "" "escape_sequence" (9, ⟨1, 0⟩) (11, ⟨1, 2⟩) []],
    part "" "string_end" (13, ⟨2, 1⟩) (16, ⟨2, 4⟩) []]

/-- The string on the right side of an assignment, with a name behind it. -/
def aroundLiteral : Node :=
  part "" "module" (0, ⟨0, 0⟩) (19, ⟨4, 0⟩) [
    part "" "expression_statement" (0, ⟨0, 0⟩) (16, ⟨2, 4⟩) [
      part "" "assignment" (0, ⟨0, 0⟩) (16, ⟨2, 4⟩) [
        part "left" "identifier" (0, ⟨0, 0⟩) (1, ⟨0, 1⟩) [],
        token "=" (2, ⟨0, 2⟩) (3, ⟨0, 3⟩),
        literal]],
    part "" "expression_statement" (17, ⟨3, 0⟩) (18, ⟨3, 1⟩) [
      part "" "identifier" (17, ⟨3, 0⟩) (18, ⟨3, 1⟩) []]]

/-- The string is kept below the root. -/
theorem literal_mem_keptAll : literal ∈ Node.keptAll aroundLiteral.children := by
  have hkept : Node.keptAll aroundLiteral.children = [_, _, literal, _] := rfl
  rw [hkept]
  simp

end Sample

/-- No node starts on the second line of the sample, although the grammar has one there. -/
theorem locate_inside_literal_sample :
    let content := "x = \"\"\"a\n\\n\nc\"\"\"\ny\n"
    Sample.aroundLiteral.Fits content.toList ∧ Sample.literal ∈ Sample.aroundLiteral.parts ∧
      Sample.literal.Sealed ∧
      (lower (Source.ofString content) Sample.aroundLiteral).locate 2 = .error ⟨2⟩ ∧
      ∃ node ∈ (lower (Source.ofString content) Sample.aroundLiteral).nodes.toList,
        node.label = "string" ∧
        (lower (Source.ofString content) Sample.aroundLiteral).subtree node = [node] := by
  intro content
  have hfits : Sample.aroundLiteral.Fits content.toList := by decide
  have hmem : Sample.literal ∈ Sample.aroundLiteral.parts :=
    Node.mem_parts_of_mem_keptAll Sample.literal_mem_keptAll
  have hsealed : Sample.literal.Sealed := by decide
  obtain ⟨hlines, hleaf⟩ := locate_inside_literal hfits hmem hsealed
  obtain ⟨-, node, hnode, hsays, halone⟩ := hleaf Sample.literal_mem_keptAll
  exact ⟨hfits, hmem, hsealed, hlines 2 (by decide) (by decide), node, hnode,
    congrArg Tree.Content.label hsays, halone⟩

end LineCoach.Concrete
