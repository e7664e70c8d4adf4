/-!
# Words of TOML

Blanks, comments, line ends, strings and keys. A reader takes a text and gives what it read with
the rest of the text, or nothing when the text does not start with what it reads.
-/

namespace LineCoach.Toml

/-- Whether a character may stand in a comment and, but for its quotes, in a string: a tab, or
anything that is no control character. -/
def isPlain (c : Char) : Bool :=
  c = '\t' || (0x20 ≤ c.toNat && c.toNat ≠ 0x7F)

/-- Whether a character is a blank within a line. -/
def isGap (c : Char) : Bool :=
  c = ' ' || c = '\t'

/-- Whether a character may stand in a key without quotes. -/
def isBare (c : Char) : Bool :=
  ('a' ≤ c && c ≤ 'z') || ('A' ≤ c && c ≤ 'Z') || ('0' ≤ c && c ≤ '9') || c = '_' || c = '-'

/-- Drop the blanks in front. -/
def skipGap (text : List Char) : List Char :=
  text.dropWhile isGap

/-- Take one newline. -/
def newline? : List Char → Option (List Char)
  | '\n' :: rest => some rest
  | '\r' :: '\n' :: rest => some rest
  | _ => none

/-- Drop a comment in front, up to the end of its line. -/
def skipComment : List Char → List Char
  | '#' :: rest => rest.dropWhile isPlain
  | text => text

/-- Take the end of a line: blanks, perhaps a comment, and a newline unless the text is over. -/
def endOfLine? (text : List Char) : Option (List Char) :=
  match skipComment (skipGap text) with
  | [] => some []
  | rest => newline? rest

/-- Drop blanks, newlines and comments. A carriage return has to belong to a newline. -/
def skipTrivia (inComment : Bool) : List Char → Option (List Char)
  | [] => some []
  | c :: rest =>
    if c = '\n' then skipTrivia false rest
    else if c = '\r' then if rest.head? = some '\n' then skipTrivia inComment rest else none
    else if inComment then if isPlain c then skipTrivia true rest else none
    else if isGap c then skipTrivia false rest
    else if c = '#' then skipTrivia true rest
    else some (c :: rest)

/-- The value of a hexadecimal digit. -/
def hexDigit? (c : Char) : Option Nat :=
  if '0' ≤ c && c ≤ '9' then some (c.toNat - '0'.toNat)
  else if 'a' ≤ c && c ≤ 'f' then some (c.toNat - 'a'.toNat + 10)
  else if 'A' ≤ c && c ≤ 'F' then some (c.toNat - 'A'.toNat + 10)
  else none

/-- The character with this code, unless the code is that of half a surrogate pair or too large. -/
def scalar? (code : Nat) : Option Char :=
  if h : code.isValidChar then some (Char.ofNatAux code h) else none

/-- The character with this code in hexadecimal digits. -/
def codeChar? (digits : List Char) : Option Char := do
  let values ← digits.mapM hexDigit?
  scalar? (values.foldl (fun code value => code * 16 + value) 0)

/-- The character that a letter behind a backslash stands for. -/
def shortEscape? (c : Char) : Option Char :=
  if c = 'b' then some '\x08'
  else if c = 't' then some '\t'
  else if c = 'n' then some '\n'
  else if c = 'f' then some '\x0c'
  else if c = 'r' then some '\r'
  else if c = '"' then some '"'
  else if c = '\\' then some '\\'
  else none

/-- Put a character in front of what was read. -/
def prepend (c : Char) : List Char × List Char → List Char × List Char
  | (read, rest) => (c :: read, rest)

/-- Read a string behind its opening double quote. -/
def readBasic : List Char → Option (List Char × List Char)
  | '"' :: rest => some ([], rest)
  | '\\' :: 'u' :: a :: b :: c :: d :: rest => do
    let char ← codeChar? [a, b, c, d]
    return prepend char (← readBasic rest)
  | '\\' :: 'U' :: a :: b :: c :: d :: e :: f :: g :: h :: rest => do
    let char ← codeChar? [a, b, c, d, e, f, g, h]
    return prepend char (← readBasic rest)
  | '\\' :: c :: rest => do
    let char ← shortEscape? c
    return prepend char (← readBasic rest)
  | c :: rest => if isPlain c && c ≠ '\\' then (readBasic rest).map (prepend c) else none
  | [] => none

/-- Where a text of several lines stands with a backslash at the end of a line, which takes away
the line's end and the blanks in front of what follows. -/
inductive Trimming where
  | off
  /-- Only blanks may stand between the backslash and the end of the line. -/
  | beforeNewline
  | afterNewline
deriving DecidableEq

/-- Read a string of several lines behind its three opening double quotes. -/
def readLongBasic : Trimming → List Char → Option (List Char × List Char)
  | _, [] => none
  | .beforeNewline, c :: rest =>
    if isGap c then readLongBasic .beforeNewline rest
    else if c = '\n' then readLongBasic .afterNewline rest
    else if c = '\r' && rest.head? = some '\n' then readLongBasic .beforeNewline rest
    else none
  | _, '"' :: '"' :: '"' :: '"' :: '"' :: rest => some (['"', '"'], rest)
  | _, '"' :: '"' :: '"' :: '"' :: rest => some (['"'], rest)
  | _, '"' :: '"' :: '"' :: rest => some ([], rest)
  | _, '\\' :: 'u' :: a :: b :: c :: d :: rest => do
    let char ← codeChar? [a, b, c, d]
    return prepend char (← readLongBasic .off rest)
  | _, '\\' :: 'U' :: a :: b :: c :: d :: e :: f :: g :: h :: rest => do
    let char ← codeChar? [a, b, c, d, e, f, g, h]
    return prepend char (← readLongBasic .off rest)
  | _, '\\' :: c :: rest =>
    match shortEscape? c with
    | some char => (readLongBasic .off rest).map (prepend char)
    | none =>
      if isGap c then readLongBasic .beforeNewline rest
      else if c = '\n' then readLongBasic .afterNewline rest
      else if c = '\r' && rest.head? = some '\n' then readLongBasic .beforeNewline rest
      else none
  | trimming, c :: rest =>
    if c = '\r' then if rest.head? = some '\n' then readLongBasic trimming rest else none
    else if trimming = .afterNewline && (isGap c || c = '\n') then
      readLongBasic .afterNewline rest
    else if (isPlain c || c = '\n') && c ≠ '\\' then (readLongBasic .off rest).map (prepend c)
    else none

/-- Read a string without escapes behind its opening single quote. -/
def readLiteral : List Char → Option (List Char × List Char)
  | '\'' :: rest => some ([], rest)
  | c :: rest => if isPlain c then (readLiteral rest).map (prepend c) else none
  | [] => none

/-- Read a string of several lines without escapes behind its three opening single quotes. -/
def readLongLiteral : List Char → Option (List Char × List Char)
  | [] => none
  | '\'' :: '\'' :: '\'' :: '\'' :: '\'' :: rest => some (['\'', '\''], rest)
  | '\'' :: '\'' :: '\'' :: '\'' :: rest => some (['\''], rest)
  | '\'' :: '\'' :: '\'' :: rest => some ([], rest)
  | c :: rest =>
    if c = '\r' then if rest.head? = some '\n' then readLongLiteral rest else none
    else if isPlain c || c = '\n' then (readLongLiteral rest).map (prepend c)
    else none

/-- Drop a newline in front, if there is one. -/
def skipNewline (text : List Char) : List Char :=
  (newline? text).getD text

/-- Read a string of any of the four forms. -/
def readString : List Char → Option (List Char × List Char)
  | '"' :: '"' :: '"' :: rest => readLongBasic .off (skipNewline rest)
  | '\'' :: '\'' :: '\'' :: rest => readLongLiteral (skipNewline rest)
  | '"' :: rest => readBasic rest
  | '\'' :: rest => readLiteral rest
  | _ => none

/-- Read one part of a key. -/
def readKeyPart (text : List Char) : Option (List Char × List Char) :=
  match text with
  | '"' :: rest => readBasic rest
  | '\'' :: rest => readLiteral rest
  | _ =>
    if (text.takeWhile isBare).isEmpty then none
    else some (text.takeWhile isBare, text.dropWhile isBare)

/-- Read the parts of a key, with dots between them and blanks around them. There are at most
`fuel` parts. -/
def readKeyParts : (fuel : Nat) → List Char → Option (List String × List Char)
  | 0, _ => none
  | fuel + 1, text => do
    let (part, rest) ← readKeyPart (skipGap text)
    match skipGap rest with
    | '.' :: more =>
      let (parts, rest) ← readKeyParts fuel more
      return (String.ofList part :: parts, rest)
    | rest => return ([String.ofList part], rest)

/-- How deep keys and values may be nested. -/
def maxDepth : Nat := 80

/-- Read a key: the tables it leads through, its own name, and the rest. -/
def readKey (text : List Char) : Option (List String × String × List Char) := do
  let (parts, rest) ← readKeyParts (maxDepth - 1) text
  let name ← parts.getLast?
  return (parts.dropLast, name, rest)

end LineCoach.Toml
