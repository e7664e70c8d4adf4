import LineCoach.Toml.Number
import LineCoach.Toml.Table

/-!
# TOML documents

A document is a sequence of lines: blank lines and comments, headers, and keys with values. It is
read into the table of its top-level names. What does not follow the grammar is refused as a whole.
-/

namespace LineCoach.Toml

mutual

/-- Read a value at a depth of nesting. `fuel` bounds the number of steps. -/
def readValue (depth : Nat) : (fuel : Nat) → List Char → Option (Value × List Char)
  | 0, _ => none
  | fuel + 1, text =>
    match text with
    | [] => none
    | c :: rest =>
      if c = '"' || c = '\'' then
        (readString text).map fun (read, rest) => (.string (String.ofList read), rest)
      else if c = '[' then
        if depth + 1 < maxDepth then
          (readItems (depth + 1) fuel rest).map fun (items, rest) => (.array items, rest)
        else none
      else if c = '\x7b' then
        if depth + 1 < maxDepth then
          match skipGap rest with
          | '\x7d' :: rest => some (.table [], rest)
          | rest =>
            (readPairs (depth + 1) fuel [] rest).map fun (members, rest) =>
              (.table (toMembers members), rest)
        else none
      else if "true".toList.isPrefixOf text then some (.boolean true, text.drop 4)
      else if "false".toList.isPrefixOf text then some (.boolean false, text.drop 5)
      else readNumber text

/-- Read the items of an array up to its closing bracket. -/
def readItems (depth : Nat) : (fuel : Nat) → List Char → Option (List Value × List Char)
  | 0, _ => none
  | fuel + 1, text => do
    match ← skipTrivia false text with
    | ']' :: rest => return ([], rest)
    | text =>
      let (item, rest) ← readValue depth fuel text
      match ← skipTrivia false rest with
      | ',' :: rest =>
        let (items, rest) ← readItems depth fuel rest
        return (item :: items, rest)
      | ']' :: rest => return ([item], rest)
      | _ => none

/-- Read the pairs of a table between braces, behind those that are there already. -/
def readPairs (depth : Nat) : (fuel : Nat) → Members → List Char → Option (Members × List Char)
  | 0, _, _ => none
  | fuel + 1, members, text => do
    let (path, name, rest) ← readKey text
    match rest with
    | '=' :: rest =>
      let (value, rest) ← readValue depth fuel (skipGap rest)
      let members ← members.addKey? path name value
      match skipGap rest with
      | ',' :: rest => readPairs depth fuel members rest
      | '\x7d' :: rest => return (members, rest)
      | _ => none
    | _ => none

end

/-- Enough steps for any value of a text. -/
def stepsFor (text : List Char) : Nat :=
  2 * text.length + 2

/-- A document that is being read: the finished part, and the table that is open, which is the
top-level one when there is no header. -/
structure Draft where
  document : Members := []
  header : Option Header := none
  table : Members := []

namespace Draft

/-- Put the open table into the document. -/
def close? (draft : Draft) : Option Members :=
  match draft.header with
  | none => some draft.table
  | some header => header.finish? draft.table draft.document

/-- Open the table of a header. -/
def open? (draft : Draft) (header : Header) : Option Draft := do
  let document ← draft.close?
  let table ← header.start? document
  return ⟨document, some header, table⟩

end Draft

/-- Read a header behind its first bracket. -/
def readHeader (text : List Char) : Option (Header × List Char) :=
  match text with
  | '[' :: text => do
    let (path, name, rest) ← readKey text
    match rest with
    | ']' :: ']' :: rest => return (⟨path, name, true⟩, rest)
    | _ => none
  | _ => do
    let (path, name, rest) ← readKey text
    match rest with
    | ']' :: rest => return (⟨path, name, false⟩, rest)
    | _ => none

/-- Read a key and its value into the open table. -/
def readPair (draft : Draft) (text : List Char) : Option (Draft × List Char) := do
  let (path, name, rest) ← readKey text
  match rest with
  | '=' :: rest =>
    let text := skipGap rest
    let (value, rest) ← readValue 0 (stepsFor text) text
    let table ← draft.table.addKey? path name value
    return ({ draft with table }, rest)
  | _ => none

/-- Read the lines of a document. Each takes at least one character, so the number of characters
bounds their number. -/
def readLines : (fuel : Nat) → Draft → List Char → Option Draft
  | 0, _, _ => none
  | fuel + 1, draft, text => do
    match skipGap text with
    | [] => return draft
    | '[' :: text =>
      let (header, rest) ← readHeader text
      readLines fuel (← draft.open? header) (← endOfLine? rest)
    | c :: text =>
      if c = '\n' || c = '\r' || c = '#' then readLines fuel draft (← endOfLine? (c :: text))
      else
        let (draft, rest) ← readPair draft (c :: text)
        readLines fuel draft (← endOfLine? rest)

/-- Read a document. A byte order mark in front is passed over. -/
def parse? (text : String) : Option (List (String × Value)) := do
  let chars := match text.toList with
    | '\uFEFF' :: rest => rest
    | chars => chars
  let draft ← readLines (chars.length + 1) {} chars
  return toMembers (← draft.close?)

end LineCoach.Toml
