import LineCoach.Proofs.Concrete.Lowering
import LineCoach.Proofs.Text.Words

/-!
# The width of a list of parameters

A signature records how wide a list of parameters is when it is written on one line. The width is
taken from the words of the list alone, so a list that is wrapped over several lines, indented or
spread out is as wide as before. It is never more than the characters that the list has, and less
wherever wrapping has added blanks.
-/

namespace LineCoach.Concrete

namespace Node

/-- The node has a name and a list of parameters, and the list is written as `list`. -/
def ListsParameters (source : Source) (n : Node) (list : List Char) : Prop :=
  (n.childByField? "name").isSome = true ∧
    (n.childByField? "parameters").map source.slice = some list

instance (source : Source) (n : Node) (list : List Char) :
    Decidable (n.ListsParameters source list) :=
  inferInstanceAs (Decidable (_ ∧ _))

/-- The recorded width is that of the respaced list. -/
theorem ListsParameters.exists_signature? {source : Source} {n : Node} {list : List Char}
    (h : n.ListsParameters source list) :
    ∃ signature, n.signature? source = some signature ∧
      signature.width = (Text.respaced list).length := by
  obtain ⟨name, hname⟩ := Option.isSome_iff_exists.1 h.1
  obtain ⟨parameters, hparameters, rfl⟩ := Option.map_eq_some_iff.1 h.2
  rw [signature?, hname, hparameters]
  exact ⟨_, rfl, rfl⟩

end Node

/-- A function with a name and a list of parameters has a signature, and the width in it is at most
the number of characters of the list; it is this number if and only if the list has no blank at its
ends and only single blanks in it. Every function whose list has the same words has a signature with
the same width, and a list has the same words after any of its runs of blanks is replaced by
another. -/
theorem width_ignores_wrapping {source : Source} {n : Node} {list : List Char}
    (h : n.ListsParameters source list) :
    ∃ signature, n.signature? source = some signature ∧
      signature.width ≤ list.length ∧
      (signature.width = list.length ↔ Text.Tight list) ∧
      (∀ (other : Source) (m : Node) (wrapped : List Char), m.ListsParameters other wrapped →
        Text.words wrapped = Text.words list →
        ∃ same, m.signature? other = some same ∧ same.width = signature.width) ∧
      ∀ front gap gap' back : List Char, list = front ++ gap ++ back →
        gap ≠ [] → (∀ c ∈ gap, Text.isBlank c = true) →
        gap' ≠ [] → (∀ c ∈ gap', Text.isBlank c = true) →
        Text.words (front ++ gap' ++ back) = Text.words list := by
  obtain ⟨signature, hsignature, hwidth⟩ := h.exists_signature?
  refine ⟨signature, hsignature, ?_, ?_, ?_, ?_⟩
  · rw [hwidth]
    exact Text.length_respaced_le list
  · rw [hwidth]
    exact Text.length_respaced_eq_iff list
  · intro other m wrapped hwrapped hwords
    obtain ⟨same, hsame, hsameWidth⟩ := hwrapped.exists_signature?
    refine ⟨same, hsame, ?_⟩
    rw [hsameWidth, hwidth, Text.respaced, Text.respaced, hwords]
  · rintro front gap gap' back rfl hne hblank hne' hblank'
    rw [Text.words_gap hne hblank, Text.words_gap hne' hblank']

namespace Sample

/-- The head of a function `f` whose list of parameters goes from byte 5 to a place. -/
def functionHead (stop : Nat × Point) : Node :=
  part "" "function_definition" (0, ⟨0, 0⟩) stop [
    token "def" (0, ⟨0, 0⟩) (3, ⟨0, 3⟩),
    part "name" "identifier" (4, ⟨0, 4⟩) (5, ⟨0, 5⟩) [],
    part "parameters" "parameters" (5, ⟨0, 5⟩) stop []]

end Sample

/-- A list on one line is as wide as it is long, and as wide as before after the space in it has
become a newline, a tab and a wide space of three bytes. -/
theorem width_ignores_wrapping_sample :
    let source := Source.ofString "def f(a, b): 0\n"
    let other := Source.ofString "def f(a,\n\t\u3000b): 0\n"
    let plain := Sample.functionHead (11, ⟨0, 11⟩)
    let wrapped := Sample.functionHead (15, ⟨1, 6⟩)
    plain.ListsParameters source "(a, b)".toList ∧
      wrapped.ListsParameters other "(a,\n\t\u3000b)".toList ∧
      Text.Tight "(a, b)".toList ∧ ¬ Text.Tight "(a,\n\t\u3000b)".toList ∧
      ∃ signature same, plain.signature? source = some signature ∧
        wrapped.signature? other = some same ∧ signature.width = 6 ∧ same.width = 6 := by
  intro source other plain wrapped
  have hplain : plain.ListsParameters source "(a, b)".toList := by decide
  have hwrapped : wrapped.ListsParameters other "(a,\n\t\u3000b)".toList := by decide
  have htight : Text.Tight "(a, b)".toList := by decide
  obtain ⟨signature, hsignature, -, hwidth, hothers, -⟩ := width_ignores_wrapping hplain
  obtain ⟨same, hsame, hsameWidth⟩ := hothers other wrapped _ hwrapped (by decide)
  have hsix : signature.width = 6 := hwidth.2 htight
  exact ⟨hplain, hwrapped, htight, by decide, signature, same, hsignature, hsame, hsix,
    hsameWidth.trans hsix⟩

end LineCoach.Concrete
