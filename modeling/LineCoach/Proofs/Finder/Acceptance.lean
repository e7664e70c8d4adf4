import LineCoach.Proofs.Finder.Exclusion
import LineCoach.Proofs.Pattern.Cutting

/-!
# Which exclusions a finder accepts

A finder needs each of its texts twice, whole and cut at the slashes. A text that is no pattern is
refused by the first reading. A pattern is refused by the second one exactly when one of its sets of
characters is written with a slash, since no other pattern has a part that is none.
-/

namespace LineCoach.Finder

/-- A text is accepted exactly when it is a pattern without a set that is written with a slash. -/
theorem accepted_iff (text : String) :
    Accepted text ↔
      ∃ pattern, Pattern.parse text = .ok pattern ∧
        ∀ token ∈ pattern.tokens, token.setMentions '/' = false := by
  rw [Accepted, Pattern.segments, exists_mapM_iff]
  simp only [Pattern.exists_parse_iff, String.toList_ofList]
  rw [Pattern.core_reads_iff, Pattern.parts_reads_iff]
  constructor
  · exact And.right
  · rintro ⟨pattern, hparse, hsets⟩
    refine ⟨(Pattern.exists_parse_iff text).1 ⟨pattern, hparse⟩, pattern, hparse, hsets⟩

/-- A finder can be made from texts exactly when each of them is a pattern and none of their sets of
characters is written with a slash. -/
theorem new_iff_patterns_without_slash_in_sets (extensions texts : List String) :
    (∃ finder, new extensions texts = .ok finder) ↔
      ∀ text ∈ texts, ∃ pattern, Pattern.parse text = .ok pattern ∧
        ∀ token ∈ pattern.tokens, token.setMentions '/' = false := by
  simp only [exists_new_iff, accepted_iff]

/-- A set of three characters, one of them a slash, is a pattern, and no finder can be made from
it. -/
theorem new_refuses_set_with_slash :
    Pattern.parse "[a/b]" = .ok ⟨[.within [.single 'a', .single '/', .single 'b']]⟩ ∧
      new ["py"] ["[a/b]"] = .error ⟨0, .invalidRange⟩ := by
  constructor
  · decide +kernel
  · decide +kernel

end LineCoach.Finder
