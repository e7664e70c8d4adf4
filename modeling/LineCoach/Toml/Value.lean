/-!
# TOML values

The values that a configuration can hold. A fraction keeps its spelling, because nothing in a
configuration is measured in fractions; a date and time has its canonical text.
-/

namespace LineCoach.Toml

/-- A TOML value. The members of a table stand in the order of the document. -/
inductive Value where
  | string (text : String)
  | integer (value : Int)
  | boolean (value : Bool)
  | float (literal : String)
  | datetime (text : String)
  | array (items : List Value)
  | table (members : List (String × Value))
deriving Repr, Inhabited

namespace Value

/-- The number, when the value is an integer. -/
def integer? : Value → Option Int
  | integer value => some value
  | _ => none

/-- The text, when the value is a string. -/
def string? : Value → Option String
  | string text => some text
  | _ => none

/-- The truth value, when the value is one. -/
def boolean? : Value → Option Bool
  | boolean value => some value
  | _ => none

/-- The items, when the value is an array. -/
def array? : Value → Option (List Value)
  | array items => some items
  | _ => none

end Value

end LineCoach.Toml
