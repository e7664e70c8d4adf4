/-!
# Path patterns

A pattern is a text with wildcards: `?` stands for one character, `*` for any run of characters,
`[...]` and `[!...]` for one character inside or outside a set, and `**`, which has to be a whole
component, for any run of whole components. No wildcard treats a slash or a dot in a special way.
-/

namespace LineCoach

namespace Pattern

/-- An item of a set of characters. -/
inductive Item where
  | single (c : Char)
  | range (low high : Char)
deriving DecidableEq, Repr

namespace Item

/-- Whether a character belongs to the item. -/
def contains (c : Char) : Item → Bool
  | single d => c = d
  | range low high => low.toNat ≤ c.toNat && c.toNat ≤ high.toNat

end Item

/-- What a pattern is made of. -/
inductive Token where
  | char (c : Char)
  /-- `?` -/
  | anyChar
  /-- `*` -/
  | anySequence
  /-- `**` with the slash behind it -/
  | anyComponents
  /-- `[...]` -/
  | within (items : List Item)
  /-- `[!...]` -/
  | except (items : List Item)
deriving DecidableEq, Repr

/-- Why a text is no pattern. -/
inductive Reason where
  | wildcards
  | recursiveWildcards
  | invalidRange
deriving DecidableEq, Repr

namespace Reason

/-- The reason in words. -/
def message : Reason → String
  | wildcards => "wildcards are either regular `*` or recursive `**`"
  | recursiveWildcards => "recursive wildcards must form a single path component"
  | invalidRange => "invalid range pattern"

end Reason

/-- Where and why a text is no pattern. -/
structure Error where
  /-- Number of characters before the fault. -/
  position : Nat
  reason : Reason
deriving DecidableEq, Repr

namespace Error

/-- The error in words. -/
def message (error : Error) : String :=
  s!"Pattern syntax error near position {error.position}: {error.reason.message}"

end Error

/-- The items of a set, with ranges written as `a-z`. -/
def items : List Char → List Item
  | a :: '-' :: b :: rest => .range a b :: items rest
  | a :: rest => .single a :: items rest
  | [] => []

/-- Split behind the first `]` that has at least `least` characters before it: what is before
the bracket and what is behind it. -/
def splitBracket? (least : Nat) (text : List Char) : Option (List Char × List Char) :=
  let before := text.take least
  match (text.drop least).dropWhile (· ≠ ']') with
  | [] => none
  | _ :: rest => some (before ++ (text.drop least).takeWhile (· ≠ ']'), rest)

/-- Read a set of characters behind its opening bracket: the token and what follows it. -/
def readSet? (text : List Char) : Option (Token × List Char) :=
  match text with
  | '!' :: body =>
    (splitBracket? 1 body).map fun (inside, rest) => (.except (items inside), rest)
  | body => (splitBracket? 1 body).map fun (inside, rest) => (.within (items inside), rest)

theorem splitBracket?_length {least : Nat} {text inside rest : List Char}
    (h : splitBracket? least text = some (inside, rest)) : rest.length < text.length := by
  simp only [splitBracket?] at h
  split at h
  · cases h
  · next c tail heq =>
    cases h
    have hlength := (List.dropWhile_sublist (l := text.drop least) (fun c => decide (c ≠ ']'))).length_le
    rw [heq] at hlength
    simp only [List.length_cons, List.length_drop] at hlength
    omega

theorem readSet?_length {text rest : List Char} {token : Token}
    (h : readSet? text = some (token, rest)) : rest.length < text.length := by
  simp only [readSet?] at h
  split at h
  · obtain ⟨⟨inside, tail⟩, hsplit, heq⟩ := Option.map_eq_some_iff.1 h
    cases heq
    have := splitBracket?_length hsplit
    simp only [List.length_cons]
    omega
  · obtain ⟨⟨inside, tail⟩, hsplit, heq⟩ := Option.map_eq_some_iff.1 h
    cases heq
    exact splitBracket?_length hsplit

/-- Add a `**` to tokens that are kept in reverse. One that follows another adds nothing, except
behind a pattern that so far is a single `**`. -/
def pushComponents : List Token → List Token
  | .anyComponents :: token :: rest => .anyComponents :: token :: rest
  | tokens => .anyComponents :: tokens

/-- Read the tokens of a text. `position` counts the characters before it, `previous` is the last
of them, and `tokens` holds what was read so far in reverse. -/
def tokenize (position : Nat) (previous : Option Char) (tokens : List Token) (text : List Char) :
    Except Error (List Token) :=
  match text with
  | [] => .ok tokens.reverse
  | '*' :: '*' :: '*' :: _ => .error ⟨position + 2, .wildcards⟩
  | '*' :: '*' :: rest =>
    if previous = none || previous = some '/' then
      match rest with
      | [] => .ok (pushComponents tokens).reverse
      | c :: more =>
        if c = '/' then tokenize (position + 3) (some '/') (pushComponents tokens) more
        else .error ⟨position + 2, .recursiveWildcards⟩
    else .error ⟨position - 1, .recursiveWildcards⟩
  | '*' :: rest => tokenize (position + 1) (some '*') (.anySequence :: tokens) rest
  | '?' :: rest => tokenize (position + 1) (some '?') (.anyChar :: tokens) rest
  | '[' :: body =>
    match _hset : readSet? body with
    | some (token, rest) =>
      tokenize (position + 1 + (body.length - rest.length)) (some ']') (token :: tokens) rest
    | none => .error ⟨position, .invalidRange⟩
  | c :: rest => tokenize (position + 1) (some c) (.char c :: tokens) rest
termination_by text.length
decreasing_by
  all_goals simp only [List.length_cons]
  all_goals first
    | omega
    | exact Nat.lt_succ_of_lt (readSet?_length _hset)

end Pattern

/-- A pattern that was read. -/
structure Pattern where
  tokens : List Pattern.Token
deriving DecidableEq, Repr

namespace Pattern

/-- Read a pattern. -/
def parse (text : String) : Except Error Pattern :=
  (tokenize 0 none [] text.toList).map Pattern.mk

end Pattern

end LineCoach
