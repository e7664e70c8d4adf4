import LineCoach.Pattern.Basic

/-!
# Matching

A pattern matches a text when its tokens can be laid over the whole of it. `*` takes any number of
characters. `**` takes whole components: nothing, everything up to a slash with that slash, or all
that is left.
-/

namespace LineCoach.Pattern

/-- The ends of a text, the whole of it first and the empty one last. -/
def suffixes : List Char → List (List Char)
  | [] => [[]]
  | c :: rest => (c :: rest) :: suffixes rest

/-- What is left behind each slash of a text. -/
def afterSlashes : List Char → List (List Char)
  | [] => []
  | c :: rest => if c = '/' then rest :: afterSlashes rest else afterSlashes rest

/-- What can be left when whole components were taken from a text. -/
def componentRests (text : List Char) : List (List Char) :=
  text :: afterSlashes text ++ [[]]

namespace Token

/-- Whether a token for one character accepts this one. -/
def accepts (c : Char) : Token → Bool
  | char d => c = d
  | anyChar => true
  | within items => items.any (Item.contains c)
  | except items => !items.any (Item.contains c)
  | anySequence => false
  | anyComponents => false

end Token

/-- Whether tokens match the whole of a text. -/
def matchTokens : List Token → List Char → Bool
  | [], text => text.isEmpty
  | .anySequence :: tokens, text => (suffixes text).any (matchTokens tokens)
  | .anyComponents :: tokens, text => (componentRests text).any (matchTokens tokens)
  | _ :: _, [] => false
  | token :: tokens, c :: rest => token.accepts c && matchTokens tokens rest

/-! ### All ends of a text at once

Following the definition of `matchTokens` tries an end of the text again for each way to get there.
A row holds the answer for every end of the text, the whole of it first, and the row of a token
comes from the row of the tokens behind it in one pass. -/

/-- The row of `*` before tokens with this row: an end matches when it or a shorter one does. -/
def sequenceRow : List Bool → List Bool
  | [] => []
  | found :: row =>
    let later := sequenceRow row
    (found || later.headD false) :: later

/-- For each end of the text, whether the row is true behind a slash or at the end of the text. -/
def slashRow : List Char → List Bool → List Bool
  | c :: rest, _ :: row =>
    let later := slashRow rest row
    ((c = '/' && row.headD false) || later.headD false) :: later
  | _, row => row

/-- The row of `**` before tokens with this row. -/
def componentRow (text : List Char) (row : List Bool) : List Bool :=
  List.zipWith (· || ·) row (slashRow text row)

/-- The row of a token for one character before tokens with this row. -/
def charRow (token : Token) : List Char → List Bool → List Bool
  | c :: rest, _ :: row => (token.accepts c && row.headD false) :: charRow token rest row
  | _, _ => [false]

/-- Whether tokens match each end of a text, the whole of it first. -/
def matchRow : List Token → List Char → List Bool
  | [], text => text.map (fun _ => false) ++ [true]
  | .anySequence :: tokens, text => sequenceRow (matchRow tokens text)
  | .anyComponents :: tokens, text => componentRow text (matchRow tokens text)
  | token :: tokens, text => charRow token text (matchRow tokens text)

/-- Whether the pattern matches the whole of a text. -/
def matchesText (pattern : Pattern) (text : String) : Bool :=
  (matchRow pattern.tokens text.toList).headD false

theorem headD_map_suffixes {α : Type} (f : List Char → α) (text : List Char) (d : α) :
    ((suffixes text).map f).headD d = f text := by
  cases text <;> simp [suffixes]

theorem sequenceRow_map_suffixes (f : List Char → Bool) (text : List Char) :
    sequenceRow ((suffixes text).map f) = (suffixes text).map fun rest => (suffixes rest).any f := by
  induction text with
  | nil => simp [suffixes, sequenceRow]
  | cons c rest ih =>
    simp only [suffixes, List.map_cons, sequenceRow, ih, headD_map_suffixes, List.any_cons]

theorem slashRow_map_suffixes (f : List Char → Bool) (text : List Char) :
    slashRow text ((suffixes text).map f)
      = (suffixes text).map fun rest => (afterSlashes rest ++ [[]]).any f := by
  induction text with
  | nil => simp [suffixes, slashRow, afterSlashes]
  | cons c rest ih =>
    simp only [suffixes, List.map_cons, slashRow, ih, headD_map_suffixes]
    by_cases h : c = '/' <;> simp [afterSlashes, h]

theorem componentRow_map_suffixes (f : List Char → Bool) (text : List Char) :
    componentRow text ((suffixes text).map f)
      = (suffixes text).map fun rest => (componentRests rest).any f := by
  rw [componentRow, slashRow_map_suffixes]
  simp [List.zipWith_map, componentRests]

theorem charRow_map_suffixes (token : Token) (f : List Char → Bool) (text : List Char) :
    charRow token text ((suffixes text).map f)
      = (suffixes text).map fun
        | [] => false
        | c :: rest => token.accepts c && f rest := by
  induction text with
  | nil => simp [suffixes, charRow]
  | cons c rest ih => simp only [suffixes, List.map_cons, charRow, ih, headD_map_suffixes]

theorem map_suffixes_isEmpty (text : List Char) :
    (suffixes text).map List.isEmpty = text.map (fun _ => false) ++ [true] := by
  induction text with
  | nil => rfl
  | cons c rest ih => simp [suffixes, ih]

/-- The row of tokens holds the answer of `matchTokens` for every end of the text. -/
theorem matchRow_eq (tokens : List Token) (text : List Char) :
    matchRow tokens text = (suffixes text).map (matchTokens tokens) := by
  induction tokens with
  | nil => rw [matchRow, ← map_suffixes_isEmpty]; rfl
  | cons token tokens ih =>
    cases token with
    | anySequence => rw [matchRow, ih, sequenceRow_map_suffixes]; rfl
    | anyComponents => rw [matchRow, ih, componentRow_map_suffixes]; rfl
    | _ =>
      rw [matchRow, ih, charRow_map_suffixes]
      · congr 1
        funext rest
        cases rest <;> rfl
      all_goals simp

/-- A pattern matches a text exactly when its tokens can be laid over the whole of it. -/
theorem matchesText_eq (pattern : Pattern) (text : String) :
    pattern.matchesText text = matchTokens pattern.tokens text.toList := by
  rw [matchesText, matchRow_eq, headD_map_suffixes]

end LineCoach.Pattern
