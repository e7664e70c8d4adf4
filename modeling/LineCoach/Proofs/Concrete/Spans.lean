import LineCoach.Proofs.Concrete.Lowering
import LineCoach.Proofs.Text.Boundary
import LineCoach.Proofs.Tree.Spans

/-!
# Spans of a lowered tree

The nodes of a concrete tree cover parts of the source text, counted in bytes. Lowering counts in
characters, drops nodes and hands children to the node around a wrapper, so that a node gets other
siblings and another parent than it had. What a concrete node leaves lies inside its own span all
the same, and this is enough for the spans of the whole tree to be nested.
-/

namespace LineCoach.Concrete

open LineCoach.Text (PointAt)
open LineCoach.Tree (Position Rose)
open LineCoach.Tree.Rose (Nested NestedIn)

namespace Node

/-- A node covers a part of a text, and its children cover parts of that one behind the other. -/
structure Sits (text : List Char) (n : Node) : Prop where
  /-- The node does not stop before it starts. -/
  ordered : n.info.startByte ≤ n.info.endByte
  /-- The node starts between two characters, at its point. -/
  start : PointAt text n.info.startByte n.info.start
  /-- The node stops between two characters, at its point. -/
  stop : PointAt text n.info.endByte n.info.stop
  /-- The children lie inside the node. -/
  inside : ∀ child ∈ n.children,
    n.info.startByte ≤ child.info.startByte ∧ child.info.endByte ≤ n.info.endByte
  /-- No child starts before those in front of it stop. -/
  apart : n.children.Pairwise fun first second => first.info.endByte ≤ second.info.startByte

instance (text : List Char) (n : Node) : Decidable (n.Sits text) :=
  decidable_of_iff
    (n.info.startByte ≤ n.info.endByte ∧ PointAt text n.info.startByte n.info.start ∧
      PointAt text n.info.endByte n.info.stop ∧
      (∀ child ∈ n.children,
        n.info.startByte ≤ child.info.startByte ∧ child.info.endByte ≤ n.info.endByte) ∧
      n.children.Pairwise fun first second => first.info.endByte ≤ second.info.startByte)
    ⟨fun ⟨ordered, start, stop, inside, apart⟩ => ⟨ordered, start, stop, inside, apart⟩,
      fun ⟨ordered, start, stop, inside, apart⟩ => ⟨ordered, start, stop, inside, apart⟩⟩

/-- A concrete tree is one of a text: all its nodes cover parts of the text. -/
def Fits (text : List Char) (n : Node) : Prop :=
  ∀ part ∈ n.parts, part.Sits text

instance (text : List Char) (n : Node) : Decidable (n.Fits text) :=
  inferInstanceAs (Decidable (∀ part ∈ n.parts, part.Sits text))

variable {content : String} {n : Node}

/-- A tree that fits has a root that sits in the text. -/
theorem Fits.sits {text : List Char} (h : n.Fits text) : n.Sits text :=
  h n n.mem_parts_self

/-- The children of a node that fits do. -/
theorem Fits.child {text : List Char} (h : n.Fits text) {child : Node} (hmem : child ∈ n.children) :
    child.Fits text :=
  fun part hpart => h part (mem_parts_of_mem_partsAll (mem_partsAll_of_mem hmem hpart))

/-- A node that sits in the text has a span that does not stop before it starts. -/
theorem Sits.span_le (h : n.Sits content.toList) :
    ((Source.ofString content).span n).start ≤ ((Source.ofString content).span n).stop :=
  h.start.position_le h.stop h.ordered

/-- The spans of the children lie inside that of the node. -/
theorem Fits.span_inside (h : n.Fits content.toList) {child : Node} (hmem : child ∈ n.children) :
    ((Source.ofString content).span n).start ≤ ((Source.ofString content).span child).start ∧
      ((Source.ofString content).span child).stop ≤ ((Source.ofString content).span n).stop := by
  obtain ⟨hstart, hstop⟩ := h.sits.inside child hmem
  have hchild := (h.child hmem).sits
  exact ⟨h.sits.start.position_le hchild.start hstart, hchild.stop.position_le h.sits.stop hstop⟩

/-- The spans of the children lie one behind the other. -/
theorem Fits.span_apart (h : n.Fits content.toList) :
    n.children.Pairwise fun first second =>
      ((Source.ofString content).span first).stop ≤ ((Source.ofString content).span second).start :=
  h.sits.apart.imp_of_mem fun hfirst hsecond hle =>
    (h.child hfirst).sits.stop.position_le (h.child hsecond).sits.start hle

end Node

mutual

/-- What a node leaves lies inside its span, one tree behind the other. -/
theorem nestedIn_lowered {content : String} :
    (n : Node) → n.Fits content.toList →
      NestedIn ((Source.ofString content).span n).start ((Source.ofString content).span n).stop
        (lowered (Source.ofString content) n)
  | .node info children, h => by
    have hbelow := nestedIn_lowereds children (fun _ hmem => h.child hmem) h.sits.span_le
      (fun _ hmem => h.span_inside hmem) h.span_apart
    rw [lowered]
    split
    · rw [NestedIn]
      exact h.sits.span_le
    · split
      · exact hbelow
      · rw [NestedIn, NestedIn, Nested]
        exact ⟨le_rfl, hbelow, le_rfl⟩

/-- What nodes leave that lie between two positions, one behind the other, does so too. -/
theorem nestedIn_lowereds {content : String} {start stop : Position} :
    (nodes : List Node) → (∀ n ∈ nodes, n.Fits content.toList) → start ≤ stop →
      (∀ n ∈ nodes, start ≤ ((Source.ofString content).span n).start ∧
        ((Source.ofString content).span n).stop ≤ stop) →
      (nodes.Pairwise fun first second =>
        ((Source.ofString content).span first).stop ≤
          ((Source.ofString content).span second).start) →
      NestedIn start stop (lowereds (Source.ofString content) nodes)
  | [], _, hle, _, _ => by
    rw [lowereds, NestedIn]
    exact hle
  | n :: rest, hfits, _, hinside, hapart => by
    rw [List.forall_mem_cons] at hfits hinside
    rw [List.pairwise_cons] at hapart
    have hfirst := nestedIn_lowered n hfits.1
    -- the others start behind this node, even where it leaves no tree
    have hrest := nestedIn_lowereds rest hfits.2 hinside.1.2
      (fun other hmem => ⟨hapart.1 other hmem, (hinside.2 other hmem).2⟩) hapart.2
    rw [lowereds]
    exact (hfirst.of_le hinside.1.1).append hrest

end

/-- What is built from a tree that fits has nested spans. -/
theorem nested_loweredRoot {content : String} {root : Node} (h : root.Fits content.toList) :
    (loweredRoot (Source.ofString content) root).Nested := by
  rw [loweredRoot, Nested]
  exact nestedIn_lowereds root.children (fun _ hmem => h.child hmem) h.sits.span_le
    (fun _ hmem => h.span_inside hmem) h.span_apart

/-- The tree of a text has ordered and nested spans, in characters, whenever the concrete tree has
them in bytes. -/
theorem lower_spans_nested {content : String} {root : Node} (h : root.Fits content.toList) :
    (lower (Source.ofString content) root).SpansNested := by
  rw [lower_eq_plantAll, build_plantAll]
  exact Tree.spansNested_ofRose (nested_loweredRoot h)

/-- The spans of the sample, where a column in characters is not the one in bytes. -/
theorem lower_spans_nested_sample :
    Sample.root.Fits Sample.text ∧
      (lower (Source.ofString (String.ofList Sample.text)) Sample.root).SpansNested := by
  have hfits : Sample.root.Fits Sample.text := by decide
  exact ⟨hfits, lower_spans_nested (by rwa [String.toList_ofList])⟩

end LineCoach.Concrete
