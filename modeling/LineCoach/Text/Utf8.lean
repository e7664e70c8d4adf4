/-!
# Byte columns

A grammar counts bytes of the UTF-8 encoding, people count characters. A text is a list of
characters here; the functions cut it where a number of bytes ends and have no answer when
that point lies inside a character or behind the end.
-/

namespace LineCoach.Text

/-- Number of bytes of the text in UTF-8. -/
def byteLength : List Char → Nat
  | [] => 0
  | c :: rest => c.utf8Size + byteLength rest

/-- The first `count` bytes of the text. -/
def takeBytes? : (count : Nat) → (text : List Char) → Option (List Char)
  | 0, _ => some []
  | _ + 1, [] => none
  | count + 1, c :: rest =>
    if c.utf8Size ≤ count + 1 then (takeBytes? (count + 1 - c.utf8Size) rest).map (c :: ·)
    else none

/-- What follows the first `count` bytes of the text. -/
def dropBytes? : (count : Nat) → (text : List Char) → Option (List Char)
  | 0, text => some text
  | _ + 1, [] => none
  | count + 1, c :: rest =>
    if c.utf8Size ≤ count + 1 then dropBytes? (count + 1 - c.utf8Size) rest else none

/-- The bytes from `start` up to `stop`. -/
def sliceBytes? (start stop : Nat) (text : List Char) : Option (List Char) :=
  if start ≤ stop then (dropBytes? start text).bind (takeBytes? (stop - start)) else none

/-- What follows each newline of the text, in order. -/
def afterNewlines : List Char → List (List Char)
  | [] => []
  | c :: rest => if c = '\n' then rest :: afterNewlines rest else afterNewlines rest

/-- The text from the start of each of its lines on. -/
def lineStarts (text : List Char) : List (List Char) :=
  text :: afterNewlines text

end LineCoach.Text
