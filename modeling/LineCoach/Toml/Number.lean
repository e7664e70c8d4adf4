import LineCoach.Toml.Lexeme
import LineCoach.Toml.Value

/-!
# Numbers and times of TOML

Integers have 64 bits with a sign. A fraction whose value is too large for a double is refused
when it is positive. Dates and times are checked against the calendar and written in one way.
-/

namespace LineCoach.Toml

/-- Whether a character is a decimal digit. -/
def isDecimal (c : Char) : Bool :=
  '0' ≤ c && c ≤ '9'

/-- Read the digits behind a first digit. An underscore has to stand between two digits. -/
def readDigitsTail (isDigit : Char → Bool) : List Char → Option (List Char × List Char)
  | [] => some ([], [])
  | ['_'] => none
  | '_' :: c :: rest =>
    if isDigit c then (readDigitsTail isDigit rest).map (prepend c) else none
  | c :: rest =>
    if isDigit c then (readDigitsTail isDigit rest).map (prepend c) else some ([], c :: rest)

/-- Read one digit and those that follow. -/
def readDigits (isDigit : Char → Bool) : List Char → Option (List Char × List Char)
  | [] => none
  | c :: rest =>
    if isDigit c then (readDigitsTail isDigit rest).map (prepend c) else none

/-- The number that digits stand for; characters that are no digit count as zero. -/
def digitsValue (base : Nat) (digits : List Char) : Nat :=
  digits.foldl (fun value c => value * base + (hexDigit? c).getD 0) 0

/-- Read a decimal number without a sign. It has no zero in front. -/
def readDecimal : List Char → Option (List Char × List Char)
  | '0' :: rest => some (['0'], rest)
  | text => readDigits isDecimal text

/-- Read an optional sign: whether it is a minus, and the rest. -/
def readSign : List Char → Bool × List Char
  | '-' :: rest => (true, rest)
  | '+' :: rest => (false, rest)
  | text => (false, text)

/-- The magnitude of the least integer of 64 bits. -/
def integerBound : Nat := Nat.pow 2 63

/-- The integer with this sign and magnitude, if it has 64 bits. -/
def integerOf? (negative : Bool) (magnitude : Nat) : Option Value :=
  if negative then if magnitude ≤ integerBound then some (.integer (-(magnitude : Int))) else none
  else if magnitude < integerBound then some (.integer magnitude)
  else none

/-- Read the digits of an integer in the base that is given. -/
def readBased (base : Nat) (text : List Char) : Option (Value × List Char) := do
  let isDigit := fun c => match hexDigit? c with
    | some value => value < base
    | none => false
  let (digits, rest) ← readDigits isDigit text
  return (← integerOf? false (digitsValue base digits), rest)

/-- Read an integer. -/
def readInteger (text : List Char) : Option (Value × List Char) :=
  match text with
  | '0' :: 'x' :: rest => readBased 16 rest
  | '0' :: 'o' :: rest => readBased 8 rest
  | '0' :: 'b' :: rest => readBased 2 rest
  | _ => do
    let (negative, body) := readSign text
    let (digits, rest) ← readDecimal body
    return (← integerOf? negative (digitsValue 10 digits), rest)

/-- Read the digits behind a decimal point, none when there is no point. -/
def readFraction : List Char → Option (List Char × List Char)
  | '.' :: rest => readDigits isDecimal rest
  | text => some ([], text)

/-- Read an exponent, zero when there is none. -/
def readExponent : List Char → Option (Int × List Char)
  | c :: rest =>
    if c = 'e' || c = 'E' then do
      let (negative, body) := readSign rest
      let (digits, rest) ← readDigits isDecimal body
      let magnitude : Int := digitsValue 10 digits
      return (if negative then -magnitude else magnitude, rest)
    else some (0, c :: rest)
  | [] => some (0, [])

/-- The least number that is rounded to infinity as a double: half a unit above the largest one. -/
def infinityBound : Nat := (Nat.pow 2 54 - 1) * Nat.pow 2 970

/-- Whether digits times a power of ten are rounded to infinity as a double. Powers that are
clearly too large or small enough are not computed. -/
def overflows (digits : List Char) (exponent : Int) : Bool :=
  let significant := digits.dropWhile (· = '0')
  let order := exponent + significant.length
  if significant.isEmpty || order < 300 then false
  else if 320 < order then true
  else if 0 ≤ exponent then infinityBound ≤ digitsValue 10 significant * Nat.pow 10 exponent.toNat
  else infinityBound * Nat.pow 10 (-exponent).toNat ≤ digitsValue 10 significant

/-- What of `text` comes before its end `rest`. -/
def takenBefore (text rest : List Char) : String :=
  String.ofList (text.take (text.length - rest.length))

/-- Read a fraction: digits with a decimal point, an exponent or both, or a special word. -/
def readFloat (text : List Char) : Option (Value × List Char) :=
  let (negative, body) := readSign text
  match body with
  | 'i' :: 'n' :: 'f' :: rest => some (.float (takenBefore text rest), rest)
  | 'n' :: 'a' :: 'n' :: rest => some (.float (takenBefore text rest), rest)
  | _ => do
    let (whole, afterWhole) ← readDecimal body
    let (fraction, afterFraction) ← readFraction afterWhole
    let (exponent, rest) ← readExponent afterFraction
    if rest.length = afterWhole.length then none
    else if !negative && overflows (whole ++ fraction) (exponent - fraction.length) then none
    else some (.float (takenBefore text rest), rest)

/-- Read a number of exactly two digits. -/
def readTwo : List Char → Option (Nat × List Char)
  | a :: b :: rest =>
    if isDecimal a && isDecimal b then some (digitsValue 10 [a, b], rest) else none
  | _ => none

/-- A number with two digits, a zero in front where needed. -/
def twoDigits (n : Nat) : List Char :=
  [Nat.digitChar (n / 10 % 10), Nat.digitChar (n % 10)]

/-- Whether a year has a leap day. -/
def isLeapYear (year : Nat) : Bool :=
  (year % 4 = 0 && year % 100 ≠ 0) || year % 400 = 0

/-- Number of days of a month. -/
def daysOf (year month : Nat) : Nat :=
  if month = 2 then if isLeapYear year then 29 else 28
  else if [4, 6, 9, 11].contains month then 30
  else 31

/-- Read a date and give its canonical text. -/
def readDate : List Char → Option (List Char × List Char)
  | a :: b :: c :: d :: '-' :: text => do
    let (month, text) ← readTwo text
    match text with
    | '-' :: text =>
      let (day, rest) ← readTwo text
      let year := digitsValue 10 [a, b, c, d]
      if [a, b, c, d].all isDecimal && 1 ≤ month && month ≤ 12
          && 1 ≤ day && day ≤ daysOf year month then
        some ([a, b, c, d, '-'] ++ twoDigits month ++ ['-'] ++ twoDigits day, rest)
      else none
    | _ => none
  | _ => none

/-- Read the fraction of a second and give its canonical text: nine digits at most, without zeros
at the end. -/
def readSecondFraction : List Char → Option (List Char × List Char)
  | '.' :: text =>
    let digits := text.takeWhile isDecimal
    if digits.isEmpty then none
    else
      let kept := ((digits.take 9).reverse.dropWhile (· = '0')).reverse
      some (if kept.isEmpty then [] else '.' :: kept, text.dropWhile isDecimal)
  | text => some ([], text)

/-- Read a time of day and give its canonical text. -/
def readTime (text : List Char) : Option (List Char × List Char) := do
  let (hour, text) ← readTwo text
  match text with
  | ':' :: text =>
    let (minute, text) ← readTwo text
    match text with
    | ':' :: text =>
      let (second, text) ← readTwo text
      let (fraction, rest) ← readSecondFraction text
      if hour ≤ 23 && minute ≤ 59 && second ≤ 60 then
        some (twoDigits hour ++ [':'] ++ twoDigits minute ++ [':'] ++ twoDigits second
          ++ fraction, rest)
      else none
    | _ => none
  | _ => none

/-- Read the distance from universal time, if there is one, and give its canonical text. -/
def readOffset (text : List Char) : Option (List Char × List Char) :=
  match text with
  | c :: rest =>
    if c = 'Z' || c = 'z' then some (['Z'], rest)
    else if c = '+' || c = '-' then do
      let (hour, text) ← readTwo rest
      match text with
      | ':' :: text =>
        let (minute, rest) ← readTwo text
        let sign := if c = '-' && (hour, minute) ≠ (0, 0) then '-' else '+'
        if hour ≤ 23 && minute ≤ 59 then
          some ([sign] ++ twoDigits hour ++ [':'] ++ twoDigits minute, rest)
        else none
      | _ => none
    else some ([], text)
  | [] => some ([], [])

/-- Read what follows a date: a time of day behind a `T` or a blank, with its distance from
universal time. A blank that no time follows is left alone. -/
def readAfterDate (text : List Char) : Option (List Char × List Char) :=
  match text with
  | c :: rest =>
    if c = 'T' || c = 't' || c = ' ' then
      match readTime rest with
      | some (time, rest) =>
        (readOffset rest).map fun (offset, rest) => ('T' :: time ++ offset, rest)
      | none => some ([], text)
    else some ([], text)
  | [] => some ([], [])

/-- Read a date, a time of day or both. -/
def readDatetime (text : List Char) : Option (Value × List Char) :=
  match readDate text with
  | some (date, rest) =>
    (readAfterDate rest).map fun (time, rest) => (.datetime (String.ofList (date ++ time)), rest)
  | none => (readTime text).map fun (time, rest) => (.datetime (String.ofList time), rest)

/-- The date or time that the whole of a text spells. -/
def datetimeOf? (text : String) : Option Value :=
  match readDatetime text.toList with
  | some (value, []) => some value
  | _ => none

/-- Read a number, a date or a time. -/
def readNumber (text : List Char) : Option (Value × List Char) :=
  (readDatetime text).or ((readFloat text).or (readInteger text))

end LineCoach.Toml
