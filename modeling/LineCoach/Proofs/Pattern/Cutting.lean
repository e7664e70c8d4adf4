import LineCoach.Pattern.Segments
import LineCoach.Proofs.Pattern.Reading
import LineCoach.Proofs.Text.Slashes

/-!
# Cutting a pattern at its slashes

A pattern is also cut at every slash, and its parts are read as patterns of their own. Only one
thing in a pattern can reach over a slash: a set of characters with a slash between its brackets.
The cut leaves the opening bracket without a closing one, and the part before it is no pattern.
Everything else lies inside of one part, and a `**` is a part of its own wherever it is allowed.
So the parts of a pattern are patterns exactly when none of its sets is written with a slash; and
parts that are patterns make a pattern when they are put together.
-/

namespace LineCoach.Pattern

open LineCoach.Text (slash_induction splitOnP_append_slash splitOnP_of_not_mem)

/-! ### Sets of characters -/

/-- Whether an item is written with a character. -/
def Item.mentions (c : Char) : Item → Bool
  | .single d => c = d
  | .range low high => c = low || c = high

/-- Whether a token is a set of characters that is written with this one. -/
def Token.setMentions (c : Char) : Token → Bool
  | .within items => items.any (Item.mentions c)
  | .except items => items.any (Item.mentions c)
  | _ => false

/-- Items are written with the characters between the brackets. -/
theorem mem_of_mentions {c : Char} {inside : List Char}
    (h : (items inside).any (Item.mentions c) = true) : c ∈ inside := by
  fun_induction items inside with
  | case1 low high rest ih =>
    rw [List.any_cons, Bool.or_eq_true] at h
    rcases h with h | h
    · rw [Item.mentions, Bool.or_eq_true, decide_eq_true_eq, decide_eq_true_eq] at h
      rcases h with rfl | rfl <;> simp
    · simp [ih h]
  | case2 d rest _ ih =>
    rw [List.any_cons, Bool.or_eq_true] at h
    rcases h with h | h
    · rw [Item.mentions, decide_eq_true_eq] at h
      simp [h]
    · simp [ih h]
  | case3 => cases h

/-- A character between the brackets is in an item, unless it may be the sign of a range. -/
theorem mentions_of_mem {c : Char} {inside : List Char} (hdash : c ≠ '-') (h : c ∈ inside) :
    (items inside).any (Item.mentions c) = true := by
  fun_induction items inside with
  | case1 low high rest ih =>
    simp only [List.mem_cons, hdash, false_or] at h
    rw [List.any_cons, Bool.or_eq_true, Item.mentions, Bool.or_eq_true, decide_eq_true_eq,
      decide_eq_true_eq]
    rcases h with h | h | h
    · exact Or.inl (Or.inl h)
    · exact Or.inl (Or.inr h)
    · exact Or.inr (ih h)
  | case2 d rest _ ih =>
    rw [List.any_cons, Bool.or_eq_true, Item.mentions, decide_eq_true_eq]
    rcases List.mem_cons.1 h with h | h
    · exact Or.inl h
    · exact Or.inr (ih h)
  | case3 => cases h

/-- What stands between brackets: something, and no closing bracket behind its first character. -/
def IsInside (inside : List Char) : Prop :=
  inside ≠ [] ∧ ']' ∉ inside.tail

/-- The text before and behind a closing bracket. -/
theorem splitBracket?_eq_some_iff {text inside rest : List Char} :
    splitBracket? 1 text = some (inside, rest) ↔
      IsInside inside ∧ text = inside ++ ']' :: rest := by
  constructor
  · intro h
    cases text with
    | nil => cases h
    | cons c text =>
      have hsplit := List.takeWhile_append_dropWhile (p := (· ≠ ']')) (l := text)
      have hfree : ∀ d ∈ text.takeWhile (· ≠ ']'), d ≠ ']' := by
        have hall := List.all_takeWhile (p := (· ≠ ']')) (l := text)
        simpa only [List.all_eq_true, decide_eq_true_eq] using hall
      simp only [splitBracket?, List.take_succ_cons, List.take_zero, List.drop_succ_cons,
        List.drop_zero, List.singleton_append] at h
      cases hdrop : text.dropWhile (· ≠ ']') with
      | nil =>
        rw [hdrop] at h
        cases h
      | cons bracket left =>
        have hstop := List.head?_dropWhile_not (· ≠ ']') text
        rw [hdrop] at h hsplit hstop
        obtain rfl : bracket = ']' := by simpa using hstop
        obtain ⟨rfl, rfl⟩ := Prod.mk.inj (Option.some.inj h)
        refine ⟨⟨List.cons_ne_nil _ _, fun hmem => hfree _ hmem rfl⟩, ?_⟩
        rw [List.cons_append, hsplit]
  · rintro ⟨⟨hne, hfree⟩, rfl⟩
    obtain ⟨c, more, rfl⟩ := List.exists_cons_of_ne_nil hne
    have hmore : ∀ d ∈ more, (decide (d ≠ ']')) = true := by
      intro d hd
      rw [decide_eq_true_eq]
      rintro rfl
      exact hfree hd
    simp only [splitBracket?, List.cons_append, List.take_succ_cons, List.take_zero,
      List.drop_succ_cons, List.drop_zero, List.dropWhile_append_of_pos hmore,
      List.takeWhile_append_of_pos hmore]
    simp

/-- What is written between the brackets of a set, and the token that it stands for. -/
inductive IsSet : List Char → Token → Prop
  | except {inside : List Char} (closed : IsInside inside) :
      IsSet ('!' :: inside) (.except (items inside))
  | within {inside : List Char} (closed : IsInside inside) (plain : inside.head? ≠ some '!') :
      IsSet inside (.within (items inside))

/-- A set mentions only what is written. -/
theorem IsSet.mem_of_setMentions {written : List Char} {token : Token} (h : IsSet written token)
    {c : Char} (hc : token.setMentions c = true) : c ∈ written := by
  cases h with
  | except closed => exact List.mem_cons_of_mem _ (mem_of_mentions hc)
  | within closed plain => exact mem_of_mentions hc

/-- A set that does not mention a slash is written without one. -/
theorem IsSet.slash_not_mem {written : List Char} {token : Token} (h : IsSet written token)
    (hslash : token.setMentions '/' = false) : '/' ∉ written := by
  have hnot {inside : List Char} (hnone : (items inside).any (Item.mentions '/') = false) :
      '/' ∉ inside := fun hmem => by
    rw [mentions_of_mem (by decide) hmem] at hnone
    cases hnone
  cases h with
  | except closed => exact List.not_mem_cons_of_ne_of_not_mem (by decide) (hnot hslash)
  | within closed plain => exact hnot hslash

/-- How a set of characters is read behind its opening bracket. -/
theorem readSet?_eq_some_iff {text rest : List Char} {token : Token} :
    readSet? text = some (token, rest) ↔
      ∃ written, IsSet written token ∧ text = written ++ ']' :: rest := by
  unfold readSet?
  split
  · next body =>
    simp only [Option.map_eq_some_iff, Prod.mk.injEq, Prod.exists, splitBracket?_eq_some_iff]
    constructor
    · rintro ⟨inside, left, ⟨hinside, rfl⟩, rfl, rfl⟩
      exact ⟨_, .except hinside, rfl⟩
    · rintro ⟨written, hset, htext⟩
      cases hset with
      | except closed => exact ⟨_, rest, ⟨closed, (List.cons.inj htext).2⟩, rfl, rfl⟩
      | within closed plain =>
        obtain ⟨c, more, rfl⟩ := List.exists_cons_of_ne_nil closed.1
        exact absurd (congrArg some (List.cons.inj htext).1.symm) plain
  · next hnot =>
    simp only [Option.map_eq_some_iff, Prod.mk.injEq, Prod.exists, splitBracket?_eq_some_iff]
    constructor
    · rintro ⟨inside, left, ⟨hinside, htext⟩, rfl, rfl⟩
      refine ⟨inside, .within hinside ?_, htext⟩
      intro hhead
      obtain ⟨more, rfl⟩ := List.head?_eq_some_iff.1 hhead
      exact hnot _ htext
    · rintro ⟨written, hset, htext⟩
      cases hset with
      | except closed => exact absurd htext (hnot _)
      | within closed plain => exact ⟨_, rest, ⟨closed, htext⟩, rfl, rfl⟩

/-- A set of characters is read in the same way when more text follows. -/
theorem readSet?_append {body rest : List Char} {token : Token}
    (h : readSet? body = some (token, rest)) (more : List Char) :
    readSet? (body ++ more) = some (token, rest ++ more) := by
  rw [readSet?_eq_some_iff] at h ⊢
  obtain ⟨written, hset, rfl⟩ := h
  exact ⟨written, hset, by rw [List.append_assoc, List.cons_append]⟩

/-- A text that begins with `front` and has no slash there is cut at a slash behind `front`. -/
theorem exists_of_append_eq_append_slash (front rest : List Char) {part more : List Char}
    (hfront : '/' ∉ front) (h : front ++ rest = part ++ '/' :: more) :
    ∃ left, part = front ++ left ∧ rest = left ++ '/' :: more := by
  rcases List.append_eq_append_iff.1 h with ⟨left, hpart, hrest⟩ | ⟨left, rfl, hmore⟩
  · exact ⟨left, hpart, hrest⟩
  · cases left with
    | nil => exact ⟨[], by simp, by simpa using hmore.symm⟩
    | cons c left =>
      rw [← (List.cons.inj hmore).1] at hfront
      simp at hfront

/-- A set of characters that is written without a slash ends before the next one. -/
theorem readSet?_cut {part more rest : List Char} {token : Token}
    (h : readSet? (part ++ '/' :: more) = some (token, rest))
    (hslash : token.setMentions '/' = false) :
    ∃ left, readSet? part = some (token, left) ∧ rest = left ++ '/' :: more := by
  obtain ⟨written, hset, htext⟩ := readSet?_eq_some_iff.1 h
  have hfree : '/' ∉ written ++ [']'] := by simpa using hset.slash_not_mem hslash
  have hcut : (written ++ [']']) ++ rest = part ++ '/' :: more := by
    rw [htext, List.append_assoc, List.singleton_append]
  obtain ⟨left, rfl, hrest⟩ := exists_of_append_eq_append_slash _ _ hfree hcut
  refine ⟨left, readSet?_eq_some_iff.2 ⟨written, hset, ?_⟩, hrest⟩
  rw [List.append_assoc, List.singleton_append]

/-! ### Two parts and a slash -/

namespace Reads

/-- A part and what follows behind a slash are read one after the other. The slash is a token of its
own unless it belongs to a `**`. -/
theorem append_slash {start : Bool} {part rest : List Char} {raw tokens : List Token}
    (h : Reads start part raw) (hrest : Reads true rest tokens) :
    ∃ link, (link = [] ∨ link = [.char '/']) ∧
      Reads start (part ++ '/' :: rest) (raw ++ link ++ tokens) := by
  induction h with
  | nil start => exact ⟨[.char '/'], Or.inr rfl, .char start (by decide) hrest⟩
  | lastComponents => exact ⟨[], Or.inl rfl, .components hrest⟩
  | components more ih =>
    obtain ⟨link, hlink, hreads⟩ := ih
    exact ⟨link, hlink, .components hreads⟩
  | @sequence start left tokens single more ih =>
    obtain ⟨link, hlink, hreads⟩ := ih
    refine ⟨link, hlink, .sequence start ?_ hreads⟩
    cases left with
    | nil => simp
    | cons c left => exact single
  | anyChar start more ih =>
    obtain ⟨link, hlink, hreads⟩ := ih
    exact ⟨link, hlink, .anyChar start hreads⟩
  | set start read more ih =>
    obtain ⟨link, hlink, hreads⟩ := ih
    exact ⟨link, hlink, .set start (readSet?_append read _) hreads⟩
  | char start plain more ih =>
    obtain ⟨link, hlink, hreads⟩ := ih
    exact ⟨link, hlink, .char start plain hreads⟩

/-- Sets are written with characters of the text. -/
theorem mem_of_setMentions {start : Bool} {text : List Char} {raw : List Token}
    (h : Reads start text raw) {token : Token} (htoken : token ∈ raw) {c : Char}
    (hc : token.setMentions c = true) : c ∈ text := by
  induction h with
  | nil start => cases htoken
  | lastComponents =>
    obtain rfl := List.mem_singleton.1 htoken
    cases hc
  | set start read more ih =>
    obtain ⟨written, hset, rfl⟩ := readSet?_eq_some_iff.1 read
    rcases List.mem_cons.1 htoken with rfl | htoken
    · simp [hset.mem_of_setMentions hc]
    · simp [ih htoken]
  | components more ih =>
    rcases List.mem_cons.1 htoken with rfl | htoken
    · cases hc
    · simp [ih htoken]
  | sequence start single more ih =>
    rcases List.mem_cons.1 htoken with rfl | htoken
    · cases hc
    · simp [ih htoken]
  | anyChar start more ih =>
    rcases List.mem_cons.1 htoken with rfl | htoken
    · cases hc
    · simp [ih htoken]
  | char start plain more ih =>
    rcases List.mem_cons.1 htoken with rfl | htoken
    · cases hc
    · simp [ih htoken]

/-- Where no set is written with a slash, a text that is cut at a slash is read in two parts. -/
theorem cut {start : Bool} {part rest : List Char} {raw : List Token}
    (h : Reads start (part ++ '/' :: rest) raw) (hpart : '/' ∉ part)
    (hsets : ∀ token ∈ raw, token.setMentions '/' = false) :
    (∃ front, Reads start part front) ∧ ∃ back, Reads true rest back ∧ back ⊆ raw := by
  generalize htext : part ++ '/' :: rest = text at h
  induction h generalizing part with
  | nil start => simp at htext
  | lastComponents =>
    have hslash : '/' ∈ ['*', '*'] := by
      rw [← htext]
      simp
    exact absurd hslash (by decide)
  | @components left tokens more ih =>
    obtain ⟨behind, rfl, hleft⟩ := exists_of_append_eq_append_slash ['*', '*'] ('/' :: left)
      (by decide) htext.symm
    cases behind with
    | nil =>
      obtain rfl : left = rest := (List.cons.inj hleft).2
      exact ⟨⟨_, .lastComponents⟩, tokens, more, List.subset_cons_self _ _⟩
    | cons c behind =>
      obtain rfl : '/' = c := (List.cons.inj hleft).1
      simp at hpart
  | @sequence start left tokens single more ih =>
    obtain ⟨behind, rfl, rfl⟩ := exists_of_append_eq_append_slash ['*'] _ (by decide) htext.symm
    have hbehind : behind.head? ≠ some '*' := by
      cases behind with
      | nil => decide
      | cons c behind => exact single
    obtain ⟨⟨front, hfront⟩, back, hback, hsubset⟩ := ih (fun hmem => hpart (by simp [hmem]))
      (fun token htoken => hsets token (List.mem_cons_of_mem _ htoken)) rfl
    exact ⟨⟨_, .sequence start hbehind hfront⟩, back, hback, List.subset_cons_of_subset _ hsubset⟩
  | anyChar start more ih =>
    obtain ⟨behind, rfl, rfl⟩ := exists_of_append_eq_append_slash ['?'] _ (by decide) htext.symm
    obtain ⟨⟨front, hfront⟩, back, hback, hsubset⟩ := ih (fun hmem => hpart (by simp [hmem]))
      (fun token htoken => hsets token (List.mem_cons_of_mem _ htoken)) rfl
    exact ⟨⟨_, .anyChar start hfront⟩, back, hback, List.subset_cons_of_subset _ hsubset⟩
  | @set start body left token tokens read more ih =>
    obtain ⟨behind, rfl, rfl⟩ := exists_of_append_eq_append_slash ['['] _ (by decide) htext.symm
    obtain ⟨after, hread, rfl⟩ := readSet?_cut read (hsets token List.mem_cons_self)
    have hafter : '/' ∉ after := fun hmem => by
      obtain ⟨written, -, rfl⟩ := readSet?_eq_some_iff.1 hread
      exact hpart (by simp [hmem])
    obtain ⟨⟨front, hfront⟩, back, hback, hsubset⟩ := ih hafter
      (fun token htoken => hsets token (List.mem_cons_of_mem _ htoken)) rfl
    exact ⟨⟨_, .set start hread hfront⟩, back, hback, List.subset_cons_of_subset _ hsubset⟩
  | @char start c left tokens plain more ih =>
    cases part with
    | nil =>
      obtain ⟨rfl, rfl⟩ := List.cons.inj htext
      exact ⟨⟨[], .nil start⟩, tokens, more, List.subset_cons_self _ _⟩
    | cons d part =>
      obtain ⟨rfl, rfl⟩ := List.cons.inj htext
      obtain ⟨⟨front, hfront⟩, back, hback, hsubset⟩ := ih (fun hmem => hpart (by simp [hmem]))
        (fun token htoken => hsets token (List.mem_cons_of_mem _ htoken)) rfl
      exact ⟨⟨_, .char start plain hfront⟩, back, hback, List.subset_cons_of_subset _ hsubset⟩

end Reads

/-! ### All parts -/

/-- Parts that can be read make a text that can be read, and none of its sets is written with a
slash. -/
theorem exists_reads_of_parts {text : List Char}
    (h : ∀ part ∈ text.splitOnP (· = '/'), ∃ raw, Reads true part raw) :
    ∃ raw, Reads true text raw ∧ ∀ token ∈ raw, token.setMentions '/' = false := by
  have hsets {part : List Char} {raw : List Token} (hreads : Reads true part raw)
      (hslash : '/' ∉ part) : ∀ token ∈ raw, token.setMentions '/' = false := by
    intro token htoken
    rw [← Bool.not_eq_true]
    exact fun hmentions => hslash (hreads.mem_of_setMentions htoken hmentions)
  induction text using slash_induction with
  | last part hpart =>
    rw [splitOnP_of_not_mem hpart] at h
    obtain ⟨raw, hreads⟩ := h part (List.mem_singleton_self part)
    exact ⟨raw, hreads, hsets hreads hpart⟩
  | more part rest hpart ih =>
    rw [splitOnP_append_slash hpart, List.forall_mem_cons] at h
    obtain ⟨⟨front, hfront⟩, hrest⟩ := h
    obtain ⟨back, hback, hfree⟩ := ih hrest
    obtain ⟨link, hlink, hreads⟩ := hfront.append_slash hback
    refine ⟨_, hreads, ?_⟩
    intro token htoken
    rw [List.mem_append, List.mem_append] at htoken
    rcases htoken with (htoken | htoken) | htoken
    · exact hsets hfront hpart token htoken
    · rcases hlink with rfl | rfl
      · cases htoken
      · rw [List.mem_singleton.1 htoken]
        rfl
    · exact hfree token htoken

/-- A text that can be read has parts that can be read if none of its sets is written with a
slash. -/
theorem reads_parts {text : List Char} {raw : List Token} (h : Reads true text raw)
    (hsets : ∀ token ∈ raw, token.setMentions '/' = false) :
    ∀ part ∈ text.splitOnP (· = '/'), ∃ raw, Reads true part raw := by
  induction text using slash_induction generalizing raw with
  | last part hpart =>
    rw [splitOnP_of_not_mem hpart]
    exact List.forall_mem_singleton.2 ⟨raw, h⟩
  | more part rest hpart ih =>
    obtain ⟨hfront, back, hback, hsubset⟩ := h.cut hpart hsets
    rw [splitOnP_append_slash hpart, List.forall_mem_cons]
    exact ⟨hfront, ih hback fun token htoken => hsets token (hsubset htoken)⟩

/-- All parts of a text are patterns exactly when the text is one and none of its sets is written
with a slash. -/
theorem parts_reads_iff (text : String) :
    (∀ part ∈ parts text, ∃ raw, Reads true part raw) ↔
      ∃ pattern, parse text = .ok pattern ∧
        ∀ token ∈ pattern.tokens, token.setMentions '/' = false := by
  constructor
  · intro h
    obtain ⟨raw, hreads, hsets⟩ := exists_reads_of_parts h
    refine ⟨⟨(raw.foldl push []).reverse⟩, parse_eq_ok_iff.2 ⟨raw, hreads, rfl⟩, ?_⟩
    intro token htoken
    rw [List.mem_reverse, mem_foldl_push] at htoken
    exact hsets token (htoken.resolve_right List.not_mem_nil)
  · rintro ⟨pattern, hparse, hsets⟩
    obtain ⟨raw, hreads, htokens⟩ := parse_eq_ok_iff.1 hparse
    refine reads_parts hreads fun token htoken => hsets token ?_
    rw [← htokens, List.mem_reverse, mem_foldl_push]
    exact Or.inl htoken

/-! ### The core -/

/-- The core of a text is what is left of its parts when some of them are taken from the two ends,
all of which leave an end open. -/
theorem exists_ends (text : String) :
    ∃ front back, parts text = front ++ core text ++ back ∧
      ∀ part ∈ front ++ back, isOpenEnd part = true := by
  let middle := (parts text).dropWhile isOpenEnd
  have hfront : (parts text).takeWhile isOpenEnd ++ middle = parts text :=
    List.takeWhile_append_dropWhile
  have hback : middle.reverse.takeWhile isOpenEnd ++ middle.reverse.dropWhile isOpenEnd =
      middle.reverse := List.takeWhile_append_dropWhile
  refine ⟨(parts text).takeWhile isOpenEnd, (middle.reverse.takeWhile isOpenEnd).reverse, ?_, ?_⟩
  · have hmiddle : core text ++ (middle.reverse.takeWhile isOpenEnd).reverse = middle := by
      rw [core, ← List.reverse_append, hback, List.reverse_reverse]
    rw [List.append_assoc, hmiddle, hfront]
  · intro part hpart
    rw [List.mem_append, List.mem_reverse] at hpart
    have hopen (parts : List (List Char)) : ∀ part ∈ parts.takeWhile isOpenEnd,
        isOpenEnd part = true := List.all_eq_true.1 List.all_takeWhile
    rcases hpart with hpart | hpart
    · exact hopen _ part hpart
    · exact hopen _ part hpart

/-- A part that leaves an end open can be read. -/
theorem exists_reads_of_isOpenEnd {part : List Char} (h : isOpenEnd part = true) :
    ∃ raw, Reads true part raw := by
  rw [isOpenEnd, Bool.or_eq_true, decide_eq_true_eq, decide_eq_true_eq] at h
  rcases h with rfl | rfl
  · exact ⟨[], .nil true⟩
  · exact ⟨[.anyComponents], .lastComponents⟩

/-- The core of a text can be read if all its parts can. -/
theorem core_reads_iff (text : String) :
    (∀ part ∈ core text, ∃ raw, Reads true part raw) ↔
      ∀ part ∈ parts text, ∃ raw, Reads true part raw := by
  obtain ⟨front, back, hparts, hopen⟩ := exists_ends text
  rw [hparts]
  constructor
  · intro h part hpart
    rw [List.mem_append, List.mem_append] at hpart
    rcases hpart with (hpart | hpart) | hpart
    · exact exists_reads_of_isOpenEnd (hopen part (List.mem_append_left _ hpart))
    · exact h part hpart
    · exact exists_reads_of_isOpenEnd (hopen part (List.mem_append_right _ hpart))
  · intro h part hpart
    exact h part (List.mem_append_left _ (List.mem_append_right _ hpart))

end LineCoach.Pattern
