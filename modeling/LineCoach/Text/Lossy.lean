/-!
# Bytes read as text

A text has an encoding in UTF-8. Bytes that come from elsewhere need not be the encoding of any
text. They can be read all the same: what is no character is read as U+FFFD, once for a byte that
begins no character and once for the bytes of a character that breaks off.
-/

namespace LineCoach.Text

/-- The encoding of a text in UTF-8. -/
def encode (text : List Char) : List UInt8 :=
  text.flatMap String.utf8EncodeChar

/-- The character that stands for bytes that are none. -/
def replacement : Char := '\uFFFD'

/-- The least and the greatest value of the second byte of a character with more than two bytes.
After some values of the first byte a smaller one would do with fewer bytes, and a greater one would
make a surrogate or a code point that is too large. -/
def secondRange (first : Nat) : Nat × Nat :=
  if first = 0xE0 then (0xA0, 0xBF)
  else if first = 0xED then (0x80, 0x9F)
  else if first = 0xF0 then (0x90, 0xBF)
  else if first = 0xF4 then (0x80, 0x8F)
  else (0x80, 0xBF)

/-- The least and the greatest value of each byte that a character has after its first one. There
is no answer for a value that begins no character. -/
def laterRanges? (first : Nat) : Option (List (Nat × Nat)) :=
  if first < 0x80 then some []
  else if first < 0xC2 then none
  else if first < 0xE0 then some [(0x80, 0xBF)]
  else if first < 0xF0 then some [secondRange first, (0x80, 0xBF)]
  else if first < 0xF5 then some [secondRange first, (0x80, 0xBF), (0x80, 0xBF)]
  else none

/-- The number of bytes at the front that stand in the ranges, each in its own. -/
def countWithin : (ranges : List (Nat × Nat)) → (bytes : List UInt8) → Nat
  | (least, greatest) :: ranges, byte :: bytes =>
    if least ≤ byte.toNat ∧ byte.toNat ≤ greatest then countWithin ranges bytes + 1 else 0
  | _, _ => 0

/-- The bits of the first byte that belong to the code point, as a modulus, for a character with
`count` bytes after the first one. -/
def leadModulus : (count : Nat) → Nat
  | 0 => 0x80
  | 1 => 0x20
  | 2 => 0x10
  | _ => 0x08

/-- The code point that the bytes of a character stand for. -/
def codePoint (first : UInt8) (later : List UInt8) : Nat :=
  later.foldl (fun value byte => value * 64 + byte.toNat % 64)
    (first.toNat % leadModulus later.length)

/-- The character that bytes begin with, and how many bytes after the first one it takes up. -/
def readFront (first : UInt8) (rest : List UInt8) : Char × Nat :=
  match laterRanges? first.toNat with
  | none => (replacement, 0)
  | some ranges =>
    let count := countWithin ranges rest
    if count = ranges.length then (Char.ofNat (codePoint first (rest.take count)), count)
    else (replacement, count)

/-- Read what follows the first `skip` bytes as text. -/
def lossyAfter : (skip : Nat) → (bytes : List UInt8) → List Char
  | _, [] => []
  | skip + 1, _ :: rest => lossyAfter skip rest
  | 0, first :: rest => (readFront first rest).1 :: lossyAfter (readFront first rest).2 rest

/-- Read bytes as text. -/
def lossy (bytes : List UInt8) : List Char :=
  lossyAfter 0 bytes

end LineCoach.Text
