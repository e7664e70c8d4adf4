/-!
# Time budgets

The time a parse may take, in milliseconds, and how it is shown: in seconds with the fraction
that is needed from one second on, in whole milliseconds below, and an empty budget in the
smallest unit.
-/

namespace LineCoach

/-- A span of time in milliseconds. -/
structure Budget where
  millis : Nat
deriving DecidableEq, Repr

namespace Budget

/-- The three decimals of a number below one thousand, without zeros at the end. -/
def decimals (millis : Nat) : List Char :=
  let digits := [millis / 100 % 10, millis / 10 % 10, millis % 10]
  (digits.reverse.dropWhile (· = 0)).reverse.map Nat.digitChar

/-- The budget as it is shown: `0ns`, `250ms`, `1.5s`, `10s`. -/
def text (budget : Budget) : String :=
  let seconds := budget.millis / 1000
  if 0 < seconds then
    let fraction := decimals (budget.millis % 1000)
    let point := if fraction.isEmpty then "" else "."
    s!"{seconds}{point}{String.ofList fraction}s"
  else if budget.millis = 0 then "0ns"
  else s!"{budget.millis}ms"

end Budget

end LineCoach
