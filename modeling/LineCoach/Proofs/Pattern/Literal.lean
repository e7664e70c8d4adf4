import Mathlib.Data.List.TakeWhile
import LineCoach.Proofs.Path.Names
import LineCoach.Proofs.Pattern.Cutting

/-!
# Patterns that spell out names

Many patterns have no wildcard but `**`, and that only at their ends: they spell out one or more
names. The parts at the ends, whatever their number, come down to tokens that stop behind a slash,
so that a text matched by the whole pattern has the names as parts of its own. The core of such a
pattern is its names, and each of them matches itself only.
-/

namespace LineCoach.Pattern

open LineCoach.Path (IsName infix_names_of_parts names_empty names_intercalate)
open LineCoach.Text (of_splitOnP_eq_cons splitOnP_append_slash splitOnP_of_not_mem)

/-- A name without a wildcard. -/
def IsLiteral (name : String) : Prop :=
  IsName name ∧ ∀ c ∈ name.toList, IsPlain c

-- the characters of the name are tested, not all characters that there are
instance (name : String) : Decidable (IsLiteral name) :=
  decidable_of_iff (IsName name ∧ name.toList.all (fun c => decide (IsPlain c)) = true)
    (by simp [IsLiteral])

/-- The text of a pattern spells out names: these are its parts, but for any number of parts before
and behind them that leave its ends open. -/
def SpellsOut (text : String) (names : List String) : Prop :=
  names ≠ [] ∧ (∀ name ∈ names, IsLiteral name) ∧
    ∃ before after, parts text = before ++ (names.map String.toList ++ after) ∧
      ∀ part ∈ before ++ after, isOpenEnd part = true

/-- A literal name spells itself out. -/
theorem spellsOut_name {name : String} (h : IsLiteral name) : SpellsOut name [name] := by
  refine ⟨List.cons_ne_nil _ _, List.forall_mem_singleton.2 h, [], [], ?_, nofun⟩
  exact splitOnP_of_not_mem h.1.1

/-- Names are spelled out below any directory, too. -/
theorem SpellsOut.below_any {text : String} {names : List String} (h : SpellsOut text names) :
    SpellsOut ("**/" ++ text) names := by
  obtain ⟨hne, hnames, before, after, hparts, hopen⟩ := h
  refine ⟨hne, hnames, ['*', '*'] :: before, after, ?_, List.forall_mem_cons.2 ⟨rfl, hopen⟩⟩
  have hstars : '/' ∉ ['*', '*'] := by decide
  have hcut := splitOnP_append_slash hstars text.toList
  rw [parts, String.toList_append, List.cons_append, ← hparts]
  exact hcut

/-- Names are spelled out with anything below them, too. -/
theorem SpellsOut.above_any {text : String} {names : List String} (h : SpellsOut text names) :
    SpellsOut (text ++ "/**") names := by
  obtain ⟨hne, hnames, before, after, hparts, hopen⟩ := h
  refine ⟨hne, hnames, before, after ++ [['*', '*']], ?_, ?_⟩
  · rw [parts, String.toList_append, ← List.append_assoc, ← List.append_assoc,
      List.append_assoc before, ← hparts]
    exact List.splitOnP_append_cons text.toList ['*', '*'] rfl
  · rw [← List.append_assoc]
    exact List.forall_mem_append.2 ⟨hopen, List.forall_mem_singleton.2 rfl⟩

/-! ### The tokens of the whole pattern -/

/-- Plain characters of one part are read one by one. -/
theorem Reads.plain (start : Bool) {chars rest : List Char} {tokens : List Token}
    (hne : chars ≠ []) (hplain : ∀ c ∈ chars, IsPlain c) (hslash : '/' ∉ chars)
    (hrest : Reads false rest tokens) :
    Reads start (chars ++ rest) (chars.map Token.char ++ tokens) := by
  induction chars generalizing start with
  | nil => exact absurd rfl hne
  | cons c chars ih =>
    obtain ⟨hc, hchars⟩ := List.forall_mem_cons.1 hplain
    rw [List.mem_cons, not_or] at hslash
    obtain ⟨hnot, hslash⟩ := hslash
    have hmore : Reads false (chars ++ rest) (chars.map Token.char ++ tokens) := by
      cases chars with
      | nil => exact hrest
      | cons d chars => exact ih false (List.cons_ne_nil _ _) hchars hslash
    refine .char start hc ?_
    rwa [decide_eq_false (Ne.symm hnot)]

/-- Plain characters match themselves. -/
theorem matchTokens_plain (chars : List Char) (tokens : List Token) (text : List Char) :
    matchTokens (chars.map Token.char ++ tokens) text = true ↔
      ∃ rest, text = chars ++ rest ∧ matchTokens tokens rest = true := by
  induction chars generalizing text with
  | nil => simp
  | cons c chars ih =>
    cases text with
    | nil => simp [matchTokens]
    | cons d text => simp [matchTokens, Token.accepts, ih]; tauto

/-- A token that an open end at the start of a pattern can come down to. -/
def IsLead (token : Token) : Prop :=
  token = .char '/' ∨ token = .anyComponents

/-- What is left behind a slash of a text. -/
theorem exists_of_mem_afterSlashes {text rest : List Char} (h : rest ∈ afterSlashes text) :
    ∃ front, text = front ++ '/' :: rest := by
  induction text with
  | nil => cases h
  | cons c text ih =>
    rw [afterSlashes] at h
    split at h
    · next hslash =>
      rcases List.mem_cons.1 h with rfl | h
      · exact ⟨[], by rw [hslash, List.nil_append]⟩
      · obtain ⟨front, rfl⟩ := ih h
        exact ⟨c :: front, rfl⟩
    · obtain ⟨front, rfl⟩ := ih h
      exact ⟨c :: front, rfl⟩

/-- Text before a text that begins at its start or behind a slash ends with a slash, too. -/
theorem getLast?_slash_append {front : List Char} (before : List Char)
    (h : front = [] ∨ front.getLast? = some '/') :
    (before ++ '/' :: front).getLast? = some '/' := by
  rcases h with rfl | h
  · exact List.getLast?_concat
  · rw [List.getLast?_append, List.getLast?_cons, h]
    rfl

/-- Leading tokens take nothing, or stop behind a slash, or take everything. -/
theorem exists_front_of_lead {lead tokens : List Token} (hlead : ∀ token ∈ lead, IsLead token)
    {text : List Char} (h : matchTokens (lead ++ tokens) text = true) :
    ∃ front rest, text = front ++ rest ∧ matchTokens tokens rest = true ∧
      ((front = [] ∨ front.getLast? = some '/') ∨ rest = []) := by
  induction lead generalizing text with
  | nil => exact ⟨[], text, rfl, h, Or.inl (Or.inl rfl)⟩
  | cons token lead ih =>
    obtain ⟨htoken, hmore⟩ := List.forall_mem_cons.1 hlead
    rcases htoken with rfl | rfl
    · obtain ⟨behind, rfl, h⟩ := (matchTokens_plain ['/'] (lead ++ tokens) text).1 h
      obtain ⟨front, rest, rfl, hmatch, hends⟩ := ih hmore h
      exact ⟨'/' :: front, rest, rfl, hmatch,
        hends.imp_left fun hfront => Or.inr (getLast?_slash_append [] hfront)⟩
    · simp only [List.cons_append, matchTokens, List.any_eq_true] at h
      obtain ⟨middle, hmiddle, h⟩ := h
      obtain ⟨front, rest, rfl, hmatch, hends⟩ := ih hmore h
      simp only [componentRests, List.cons_append, List.mem_cons, List.mem_append,
        List.not_mem_nil, or_false] at hmiddle
      rcases hmiddle with rfl | hmiddle | hmiddle
      · exact ⟨front, rest, rfl, hmatch, hends⟩
      · obtain ⟨before, rfl⟩ := exists_of_mem_afterSlashes hmiddle
        exact ⟨before ++ '/' :: front, rest, by simp, hmatch,
          hends.imp_left fun hfront => Or.inr (getLast?_slash_append before hfront)⟩
      · obtain ⟨rfl, rfl⟩ := List.append_eq_nil_iff.1 hmiddle
        exact ⟨text, [], by simp, hmatch, Or.inr rfl⟩

/-! ### Spelled names -/

/-- Names joined by slashes. -/
def joined (names : List String) : List Char :=
  ['/'].intercalate (names.map String.toList)

theorem joined_singleton (name : String) : joined [name] = name.toList := by
  rw [joined, List.map_singleton, List.intercalate_singleton]

theorem joined_cons_cons (name next : String) (rest : List String) :
    joined (name :: next :: rest) = name.toList ++ '/' :: joined (next :: rest) := by
  simp [joined, List.intercalate_cons_cons]

/-- Behind its names a pattern ends, or a slash follows. -/
theorem reads_names {text : List Char} {names : List String} {after : List (List Char)}
    (hne : names ≠ []) (hnames : ∀ name ∈ names, IsLiteral name)
    (hafter : ∀ part ∈ after, isOpenEnd part = true)
    (h : text.splitOnP (· = '/') = names.map String.toList ++ after) :
    ∃ trail, (trail = [] ∨ trail.head? = some (.char '/')) ∧
      Reads true text ((joined names).map Token.char ++ trail) := by
  induction names generalizing text with
  | nil => exact absurd rfl hne
  | cons name names ih =>
    obtain ⟨⟨⟨hslash, hempty, -⟩, hplain⟩, hmore⟩ := List.forall_mem_cons.1 hnames
    have hname : name.toList ≠ [] := by simpa using hempty
    rcases of_splitOnP_eq_cons h with ⟨hlast, rfl⟩ | ⟨rest, rfl, hrest⟩
    · obtain ⟨hnil, rfl⟩ := List.append_eq_nil_iff.1 hlast
      obtain rfl := List.map_eq_nil_iff.1 hnil
      refine ⟨[], Or.inl rfl, ?_⟩
      rw [joined_singleton]
      have hreads := Reads.plain true hname hplain hslash (.nil false)
      rwa [List.append_nil name.toList] at hreads
    · cases names with
      | nil =>
        obtain rfl : rest.splitOnP (· = '/') = after := hrest
        obtain ⟨raw, hraw, -⟩ := exists_reads_of_parts fun part hpart =>
          exists_reads_of_isOpenEnd (hafter part hpart)
        have hslashed : Reads false ('/' :: rest) (.char '/' :: raw) := .char false (by decide) hraw
        refine ⟨.char '/' :: raw, Or.inr rfl, ?_⟩
        rw [joined_singleton]
        exact .plain true hname hplain hslash hslashed
      | cons next names =>
        obtain ⟨trail, htrail, hreads⟩ := ih (List.cons_ne_nil _ _) hmore hrest
        refine ⟨trail, htrail, ?_⟩
        have hslashed : Reads false ('/' :: rest)
            (.char '/' :: ((joined (next :: names)).map Token.char ++ trail)) :=
          .char false (by decide) hreads
        rw [joined_cons_cons, List.map_append, List.map_cons, List.append_assoc, List.cons_append]
        exact .plain true hname hplain hslash hslashed

/-- Open ends before the names come down to leading tokens. -/
theorem reads_spelled {text : List Char} {names : List String} {before after : List (List Char)}
    (hne : names ≠ []) (hnames : ∀ name ∈ names, IsLiteral name)
    (hbefore : ∀ part ∈ before, isOpenEnd part = true)
    (hafter : ∀ part ∈ after, isOpenEnd part = true)
    (h : text.splitOnP (· = '/') = before ++ (names.map String.toList ++ after)) :
    ∃ lead trail, (∀ token ∈ lead, IsLead token) ∧
      (trail = [] ∨ trail.head? = some (.char '/')) ∧
      Reads true text (lead ++ ((joined names).map Token.char ++ trail)) := by
  induction before generalizing text with
  | nil =>
    obtain ⟨trail, htrail, hreads⟩ := reads_names hne hnames hafter h
    exact ⟨[], trail, nofun, htrail, hreads⟩
  | cons part before ih =>
    obtain ⟨hpart, hrest⟩ := List.forall_mem_cons.1 hbefore
    rcases of_splitOnP_eq_cons h with ⟨hlast, -⟩ | ⟨rest, rfl, hsplit⟩
    · have hnil := (List.append_eq_nil_iff.1 (List.append_eq_nil_iff.1 hlast).2).1
      exact absurd (List.map_eq_nil_iff.1 hnil) hne
    · obtain ⟨lead, trail, hlead, htrail, hreads⟩ := ih hrest hsplit
      rw [isOpenEnd, Bool.or_eq_true, decide_eq_true_eq, decide_eq_true_eq] at hpart
      rcases hpart with rfl | rfl
      · exact ⟨.char '/' :: lead, trail, List.forall_mem_cons.2 ⟨Or.inl rfl, hlead⟩, htrail,
          .char true (by decide) hreads⟩
      · exact ⟨.anyComponents :: lead, trail, List.forall_mem_cons.2 ⟨Or.inr rfl, hlead⟩, htrail,
          .components hreads⟩

/-- A name that is read as a pattern. -/
def literal (name : String) : Pattern :=
  ⟨name.toList.map Token.char⟩

theorem foldl_push_char (chars : List Char) (tokens : List Token) :
    (chars.map Token.char).foldl push tokens = (chars.map Token.char).reverse ++ tokens := by
  induction chars generalizing tokens with
  | nil => rfl
  | cons c chars ih =>
    rw [List.map_cons, List.foldl_cons, ih, List.reverse_cons, List.append_assoc]
    rfl

/-- A literal name is a pattern of its characters. -/
theorem parse_literal {name : String} (h : IsLiteral name) : parse name = .ok (literal name) := by
  obtain ⟨⟨hslash, hempty, -⟩, hplain⟩ := h
  have hreads := Reads.plain true (by simpa using hempty) hplain hslash (.nil false)
  rw [List.append_nil, List.append_nil] at hreads
  refine parse_eq_ok_iff.2 ⟨_, hreads, ?_⟩
  rw [foldl_push_char, List.append_nil, List.reverse_reverse, literal]

/-- A literal name matches itself only. -/
theorem matchesText_literal (name other : String) :
    (literal name).matchesText other = true ↔ name = other := by
  have hmatch := matchTokens_plain name.toList [] other.toList
  rw [List.append_nil] at hmatch
  rw [matchesText_eq, literal, hmatch, ← String.toList_inj]
  constructor
  · rintro ⟨rest, htext, hrest⟩
    rw [htext, List.isEmpty_iff.1 hrest, List.append_nil]
  · intro htext
    exact ⟨[], by rw [htext, List.append_nil], rfl⟩

/-- Literal names match the first names of a list if they are these. -/
theorem matchesFront_literal (names others : List String) :
    matchesFront (names.map literal) others = true ↔ names <+: others := by
  induction names generalizing others with
  | nil => simp [matchesFront]
  | cons name names ih =>
    cases others with
    | nil => simp [matchesFront]
    | cons other others =>
      rw [List.map_cons, matchesFront, Bool.and_eq_true, matchesText_literal, ih,
        List.cons_prefix_cons]

/-- Literal names match somewhere in a list if they stand there together. -/
theorem matchesRun_literal (names others : List String) :
    matchesRun (names.map literal) others = true ↔ names <:+: others := by
  induction others with
  | nil => rw [matchesRun, matchesFront_literal, List.prefix_nil, List.infix_nil]
  | cons other others ih =>
    rw [matchesRun, Bool.or_eq_true, matchesFront_literal, ih, List.infix_cons_iff]

/-- A literal name leaves no end open. -/
theorem isOpenEnd_literal {name : String} (h : IsLiteral name) : isOpenEnd name.toList = false := by
  obtain ⟨⟨-, hempty, -⟩, hplain⟩ := h
  rw [isOpenEnd, Bool.or_eq_false_iff, decide_eq_false_iff_not, decide_eq_false_iff_not]
  constructor
  · simpa using hempty
  · intro hstars
    exact (hplain '*' (by rw [hstars]; exact List.mem_cons_self)).1 rfl

/-- Nothing is left out at the front of parts that leave no end open. -/
theorem dropWhile_of_closed {closed : List (List Char)} (hne : closed ≠ [])
    (hclosed : ∀ part ∈ closed, isOpenEnd part = false) (more : List (List Char)) :
    (closed ++ more).dropWhile isOpenEnd = closed ++ more := by
  obtain ⟨part, rest, rfl⟩ := List.exists_cons_of_ne_nil hne
  have hpart := hclosed part List.mem_cons_self
  rw [List.cons_append, List.dropWhile_cons_of_neg (by rw [hpart]; decide)]

namespace SpellsOut

variable {text : String} {names : List String}

/-- The core of a pattern that spells out names are the names. -/
theorem core_eq (h : SpellsOut text names) : core text = names.map String.toList := by
  obtain ⟨hne, hnames, before, after, hparts, hopen⟩ := h
  rw [List.forall_mem_append] at hopen
  have hclosed : ∀ part ∈ names.map String.toList, isOpenEnd part = false := by
    intro part hpart
    obtain ⟨name, hname, rfl⟩ := List.mem_map.1 hpart
    exact isOpenEnd_literal (hnames name hname)
  have hmap : names.map String.toList ≠ [] := fun hnil => hne (List.map_eq_nil_iff.1 hnil)
  have hfront : (parts text).dropWhile isOpenEnd = names.map String.toList ++ after := by
    rw [hparts, List.dropWhile_append_of_pos hopen.1]
    exact dropWhile_of_closed hmap hclosed after
  have hback : (names.map String.toList ++ after).reverse.dropWhile isOpenEnd =
      (names.map String.toList).reverse := by
    rw [List.reverse_append, List.dropWhile_append_of_pos fun part hpart =>
      hopen.2 part (List.mem_reverse.1 hpart)]
    have hreverse := dropWhile_of_closed (List.reverse_ne_nil_iff.2 hmap)
      (fun part hpart => hclosed part (List.mem_reverse.1 hpart)) []
    rwa [List.append_nil] at hreverse
  rw [core, hfront, hback, List.reverse_reverse]

/-- The segments of a pattern that spells out names are the names. -/
theorem segments_eq (h : SpellsOut text names) : segments text = .ok (names.map literal) := by
  rw [segments, h.core_eq]
  obtain ⟨-, hnames, -⟩ := h
  induction names with
  | nil => rfl
  | cons name names ih =>
    obtain ⟨hname, hmore⟩ := List.forall_mem_cons.1 hnames
    rw [List.map_cons, List.mapM_cons, String.ofList_toList, parse_literal hname, ih hmore]
    rfl

/-- A pattern that spells out names matches as a whole only paths that have these names. -/
theorem infix_of_matchesText (h : SpellsOut text names) {pattern : Pattern}
    (hparse : parse text = .ok pattern) {path : Path}
    (hmatch : pattern.matchesText path.text = true) :
    names <:+: path.names := by
  obtain ⟨hne, hnames, before, after, hparts, hopen⟩ := h
  rw [List.forall_mem_append] at hopen
  obtain ⟨lead, trail, hlead, htrail, hreads⟩ := reads_spelled hne hnames hopen.1 hopen.2 hparts
  rw [matchesText_of_reads hreads hparse] at hmatch
  obtain ⟨front, rest, htext, hrest, hends⟩ := exists_front_of_lead hlead hmatch
  obtain ⟨back, rfl, hback⟩ := (matchTokens_plain _ _ _).1 hrest
  have hisName : ∀ name ∈ names, IsName name := fun name hname => (hnames name hname).1
  have hsome : joined names ++ back ≠ [] := by
    intro hnil
    apply hne
    rw [← names_intercalate hne hisName, ← joined, (List.append_eq_nil_iff.1 hnil).1, names_empty]
  have hslash : back = [] ∨ back.head? = some '/' := by
    rcases htrail with rfl | htrail
    · exact Or.inl (List.isEmpty_iff.1 hback)
    · obtain ⟨more, rfl⟩ := List.head?_eq_some_iff.1 htrail
      obtain ⟨behind, rfl, -⟩ := (matchTokens_plain ['/'] more back).1 hback
      exact Or.inr rfl
  have hinfix := infix_names_of_parts hne hisName (hends.resolve_right hsome) hslash
  rwa [← joined, List.append_assoc, ← htext, String.ofList_toList] at hinfix

end SpellsOut

end LineCoach.Pattern
