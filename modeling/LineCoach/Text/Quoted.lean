import LineCoach.Text.Unseen

/-!
# Quoted text

A text is shown between double quotes. Quotes, backslashes and the usual control characters have a
short escape; other characters that leave no mark of their own are written by their code in braces.
-/

namespace LineCoach.Text

/-- Hexadecimal digits of a number, in lower case, without leading zeros. -/
def hexadecimal (n : Nat) : List Char :=
  Nat.toDigits 16 n

/-- Two hexadecimal digits of a number below 256, in lower case. -/
def hexByte (n : Nat) : List Char :=
  [Nat.digitChar (n / 16), Nat.digitChar (n % 16)]

/-- The long escape of a character: its code between braces. -/
def codeEscape (c : Char) : List Char :=
  ['\\', 'u', '\x7b'] ++ hexadecimal c.toNat ++ ['\x7d']

/-- The escape of one character, which is the character itself when it needs none. -/
def escape (c : Char) : List Char :=
  if c = '"' || c = '\\' then ['\\', c]
  else if c = '\t' then ['\\', 't']
  else if c = '\n' then ['\\', 'n']
  else if c = '\r' then ['\\', 'r']
  else if c.toNat = 0 then ['\\', '0']
  else if isUnseen c then codeEscape c
  else [c]

/-- The text between double quotes. -/
def quote (text : String) : String :=
  String.ofList (['"'] ++ text.toList.flatMap escape ++ ['"'])

end LineCoach.Text
