import Mathlib.Data.List.Basic
import LineCoach.Pattern.Match

/-!
# Reading a pattern

A pattern is read from left to right with three things at hand: a position for errors, the last
character, and the tokens so far. What is read depends on little of this. `Reads` tells it from the
text and from whether a component begins there, and a text is accepted exactly when there are
tokens that it reads as. Of several `**` in a row the reader keeps one or two; those that it leaves
out have no part in matching, so that a pattern matches what all its tokens match.
-/

namespace LineCoach.Pattern

/-- Whether a component begins behind the last character, or at the start of a text. -/
def beginsPart (previous : Option Char) : Bool :=
  previous = none || previous = some '/'

/-- A character that stands for itself in a pattern. -/
def IsPlain (c : Char) : Prop :=
  c ≠ '*' ∧ c ≠ '?' ∧ c ≠ '['

instance (c : Char) : Decidable (IsPlain c) :=
  inferInstanceAs (Decidable (_ ∧ _))

/-- The tokens that a text reads as, none of them left out. The flag says whether a component begins
where the text begins. -/
inductive Reads : Bool → List Char → List Token → Prop
  | nil (start : Bool) : Reads start [] []
  | lastComponents : Reads true ['*', '*'] [.anyComponents]
  | components {rest : List Char} {tokens : List Token} (more : Reads true rest tokens) :
      Reads true ('*' :: '*' :: '/' :: rest) (.anyComponents :: tokens)
  | sequence (start : Bool) {rest : List Char} {tokens : List Token}
      (single : rest.head? ≠ some '*') (more : Reads false rest tokens) :
      Reads start ('*' :: rest) (.anySequence :: tokens)
  | anyChar (start : Bool) {rest : List Char} {tokens : List Token}
      (more : Reads false rest tokens) :
      Reads start ('?' :: rest) (.anyChar :: tokens)
  | set (start : Bool) {body rest : List Char} {token : Token} {tokens : List Token}
      (read : readSet? body = some (token, rest)) (more : Reads false rest tokens) :
      Reads start ('[' :: body) (token :: tokens)
  | char (start : Bool) {c : Char} {rest : List Char} {tokens : List Token} (plain : IsPlain c)
      (more : Reads (decide (c = '/')) rest tokens) :
      Reads start (c :: rest) (.char c :: tokens)

/-- Add a token to tokens that are kept in reverse. -/
def push (tokens : List Token) : Token → List Token
  | .anyComponents => pushComponents tokens
  | token => token :: tokens

/-- A `**` is left out behind another one that is not the first token. -/
theorem pushComponents_cases (tokens : List Token) :
    (∃ token rest, tokens = .anyComponents :: token :: rest ∧ pushComponents tokens = tokens) ∨
      pushComponents tokens = .anyComponents :: tokens := by
  unfold pushComponents
  split
  · next token rest => exact Or.inl ⟨token, rest, rfl, rfl⟩
  · exact Or.inr rfl

/-- A set of characters is added like any token but `**`. -/
theorem push_of_readSet? {body rest : List Char} {token : Token}
    (h : readSet? body = some (token, rest)) (tokens : List Token) :
    push tokens token = token :: tokens := by
  simp only [readSet?] at h
  split at h <;>
  · obtain ⟨inside, -, heq⟩ := Option.map_eq_some_iff.1 h
    cases heq
    rfl

/-- What is accepted reads as tokens, and these are added one by one. -/
theorem exists_reads_of_tokenize {position : Nat} {previous : Option Char}
    {tokens result : List Token} {text : List Char}
    (h : tokenize position previous tokens text = .ok result) :
    ∃ raw, Reads (beginsPart previous) text raw ∧ (raw.foldl push tokens).reverse = result := by
  fun_induction tokenize position previous tokens text with
  | case1 position previous tokens => exact ⟨[], .nil _, Except.ok.inj h⟩
  | case2 => cases h
  | case3 position previous tokens hstart _ =>
    rw [beginsPart, hstart]
    exact ⟨[.anyComponents], .lastComponents, Except.ok.inj h⟩
  | case4 position previous tokens hstart rest _ ih =>
    rw [beginsPart, hstart]
    obtain ⟨raw, hreads, hresult⟩ := ih h
    exact ⟨.anyComponents :: raw, .components hreads, hresult⟩
  | case5 => cases h
  | case6 => cases h
  | case7 position previous tokens rest _ hsingle ih =>
    obtain ⟨raw, hreads, hresult⟩ := ih h
    refine ⟨.anySequence :: raw, .sequence _ ?_ hreads, hresult⟩
    intro hhead
    obtain ⟨more, hmore⟩ := List.head?_eq_some_iff.1 hhead
    exact hsingle more hmore
  | case8 position previous tokens rest ih =>
    obtain ⟨raw, hreads, hresult⟩ := ih h
    exact ⟨.anyChar :: raw, .anyChar _ hreads, hresult⟩
  | case9 position previous tokens body token rest hset ih =>
    obtain ⟨raw, hreads, hresult⟩ := ih h
    refine ⟨token :: raw, .set _ hset hreads, ?_⟩
    rw [List.foldl_cons, push_of_readSet? hset]
    exact hresult
  | case10 => cases h
  | case11 position previous tokens c rest _ _ hstar hmark hbracket ih =>
    obtain ⟨raw, hreads, hresult⟩ := ih h
    refine ⟨.char c :: raw, .char _ ⟨hstar, hmark, hbracket⟩ ?_, hresult⟩
    simpa [beginsPart] using hreads

/-- What reads as tokens is accepted, with these tokens added one by one. -/
theorem Reads.tokenize {start : Bool} {text : List Char} {raw : List Token}
    (h : Reads start text raw) (position : Nat) {previous : Option Char}
    (hstart : beginsPart previous = start) (tokens : List Token) :
    tokenize position previous tokens text = .ok (raw.foldl push tokens).reverse := by
  induction h generalizing position previous tokens with
  | nil start =>
    rw [Pattern.tokenize]
    rfl
  | lastComponents =>
    rw [beginsPart] at hstart
    rw [Pattern.tokenize, if_pos hstart]
    rfl
  | components more ih =>
    rw [beginsPart] at hstart
    rw [Pattern.tokenize, if_pos hstart]
    · exact ih _ rfl _
    · exact fun _ hslash => absurd (List.cons.inj hslash).1 (by decide)
  | sequence start single more ih =>
    rw [Pattern.tokenize]
    · exact ih _ rfl _
    · rintro tail rfl
      exact single rfl
    · rintro tail rfl
      exact single rfl
  | anyChar start more ih =>
    rw [Pattern.tokenize]
    exact ih _ rfl _
  | @set start body rest token tokens read more ih =>
    rw [Pattern.tokenize]
    split
    · next found left hfound =>
      rw [read, Option.some.injEq, Prod.mk.injEq] at hfound
      obtain ⟨rfl, rfl⟩ := hfound
      rw [ih _ rfl, List.foldl_cons, push_of_readSet? read]
    · next hnone =>
      rw [read] at hnone
      cases hnone
  | @char start c rest tokens plain more ih =>
    rw [Pattern.tokenize]
    · refine ih _ ?_ _
      simp [beginsPart]
    · exact fun _ hstar _ => plain.1 hstar
    · exact fun _ hstar _ => plain.1 hstar
    · exact plain.1
    · exact plain.2.1
    · exact plain.2.2

/-- A text is accepted as a pattern exactly when it reads as tokens. -/
theorem parse_eq_ok_iff {text : String} {pattern : Pattern} :
    parse text = .ok pattern ↔
      ∃ raw, Reads true text.toList raw ∧ (raw.foldl push []).reverse = pattern.tokens := by
  rw [parse]
  constructor
  · intro h
    cases hread : tokenize 0 none [] text.toList with
    | error e =>
      rw [hread] at h
      cases h
    | ok tokens =>
      rw [hread] at h
      obtain rfl : Pattern.mk tokens = pattern := Except.ok.inj h
      exact exists_reads_of_tokenize hread
  · rintro ⟨raw, hreads, htokens⟩
    rw [hreads.tokenize 0 rfl, htokens]
    rfl

/-- A text is a pattern exactly when it reads as some tokens. -/
theorem exists_parse_iff (text : String) :
    (∃ pattern, parse text = .ok pattern) ↔ ∃ raw, Reads true text.toList raw := by
  simp only [parse_eq_ok_iff]
  constructor
  · rintro ⟨pattern, raw, hreads, -⟩
    exact ⟨raw, hreads⟩
  · rintro ⟨raw, hreads⟩
    exact ⟨⟨_⟩, raw, hreads, rfl⟩

/-! ### What is left out -/

/-- Adding a token keeps all tokens, and the added one is among them. -/
theorem mem_push (tokens : List Token) (added token : Token) :
    token ∈ push tokens added ↔ token = added ∨ token ∈ tokens := by
  cases added with
  | anyComponents =>
    change token ∈ pushComponents tokens ↔ _
    rcases pushComponents_cases tokens with ⟨next, rest, rfl, heq⟩ | heq
    · rw [heq, List.mem_cons, or_self_left]
    · rw [heq, List.mem_cons]
  | _ => exact List.mem_cons

/-- The tokens that are kept are those that are read. -/
theorem mem_foldl_push (raw tokens : List Token) (token : Token) :
    token ∈ raw.foldl push tokens ↔ token ∈ raw ∨ token ∈ tokens := by
  induction raw generalizing tokens with
  | nil => simp
  | cons first rest ih =>
    rw [List.foldl_cons, ih, mem_push, List.mem_cons]
    tauto

/-- What can be left behind a slash can also be left before it. -/
theorem afterSlashes_subset {text rest : List Char} (h : rest ∈ afterSlashes text) :
    afterSlashes rest ⊆ afterSlashes text := by
  induction text with
  | nil => cases h
  | cons c more ih =>
    rw [afterSlashes] at h
    rw [afterSlashes.eq_def (c :: more)]
    split at h
    · next hslash =>
      simp only [hslash, if_true]
      rcases List.mem_cons.1 h with rfl | hmore
      · exact List.subset_cons_self _ _
      · exact List.subset_cons_of_subset _ (ih hmore)
    · next hslash =>
      simp only [hslash, if_false]
      exact ih h

/-- Taking whole components twice leaves what taking them once can leave. -/
theorem mem_componentRests_trans {text middle rest : List Char}
    (hmiddle : middle ∈ componentRests text) (hrest : rest ∈ componentRests middle) :
    rest ∈ componentRests text := by
  simp only [componentRests, List.cons_append, List.mem_cons, List.mem_append, List.not_mem_nil,
    or_false] at hmiddle hrest ⊢
  rcases hmiddle with rfl | hmiddle | rfl
  · exact hrest
  · rcases hrest with rfl | hrest | hrest
    · exact Or.inr (Or.inl hmiddle)
    · exact Or.inr (Or.inl (afterSlashes_subset hmiddle hrest))
    · exact Or.inr (Or.inr hrest)
  · rcases hrest with hrest | hrest | hrest
    · exact Or.inr (Or.inr hrest)
    · cases hrest
    · exact Or.inr (Or.inr hrest)

/-- A second `**` in a row matches nothing more. -/
theorem matchTokens_anyComponents_twice (tokens : List Token) :
    matchTokens (.anyComponents :: .anyComponents :: tokens) =
      matchTokens (.anyComponents :: tokens) := by
  funext text
  rw [Bool.eq_iff_iff]
  simp only [matchTokens, List.any_eq_true]
  constructor
  · rintro ⟨middle, hmiddle, rest, hrest, hmatch⟩
    exact ⟨rest, mem_componentRests_trans hmiddle hrest, hmatch⟩
  · rintro ⟨rest, hrest, hmatch⟩
    exact ⟨rest, hrest, rest, List.mem_cons_self, hmatch⟩

/-- Tokens that match the same can stand for each other at the end of a pattern. -/
theorem matchTokens_append_congr (front : List Token) {tokens tokens' : List Token}
    (h : matchTokens tokens = matchTokens tokens') :
    matchTokens (front ++ tokens) = matchTokens (front ++ tokens') := by
  induction front with
  | nil => exact h
  | cons token front ih =>
    funext text
    cases token with
    | anySequence => simp only [List.cons_append, matchTokens, ih]
    | anyComponents => simp only [List.cons_append, matchTokens, ih]
    | _ => cases text <;> simp only [List.cons_append, matchTokens, ih]

/-- Whether a token is left out makes no difference to what is matched. -/
theorem matchTokens_push (tokens : List Token) (added : Token) (rest : List Token) :
    matchTokens ((push tokens added).reverse ++ rest) =
      matchTokens (tokens.reverse ++ added :: rest) := by
  cases added with
  | anyComponents =>
    change matchTokens ((pushComponents tokens).reverse ++ rest) = _
    rcases pushComponents_cases tokens with ⟨next, more, rfl, heq⟩ | heq
    · rw [heq]
      simp only [List.reverse_cons, List.append_assoc, List.singleton_append]
      apply matchTokens_append_congr
      apply matchTokens_append_congr [next]
      exact (matchTokens_anyComponents_twice rest).symm
    · rw [heq, List.reverse_cons, List.append_assoc, List.singleton_append]
  | _ => simp [push]

/-- The tokens that are kept match what all tokens match. -/
theorem matchTokens_foldl_push (raw tokens rest : List Token) :
    matchTokens ((raw.foldl push tokens).reverse ++ rest) =
      matchTokens (tokens.reverse ++ (raw ++ rest)) := by
  induction raw generalizing tokens with
  | nil => simp
  | cons token raw ih => rw [List.foldl_cons, ih, matchTokens_push, List.cons_append]

/-- A pattern matches what the tokens of its text match. -/
theorem matchesText_of_reads {text : String} {raw : List Token} (h : Reads true text.toList raw)
    {pattern : Pattern} (hparse : parse text = .ok pattern) (other : String) :
    pattern.matchesText other = matchTokens raw other.toList := by
  have htokens : (raw.foldl push []).reverse = pattern.tokens := by
    rw [parse, h.tokenize 0 rfl] at hparse
    exact congrArg Pattern.tokens (Except.ok.inj hparse)
  have hmatch := matchTokens_foldl_push raw [] []
  simp only [List.append_nil, List.reverse_nil, List.nil_append] at hmatch
  rw [matchesText_eq, ← htokens, hmatch]

end LineCoach.Pattern
