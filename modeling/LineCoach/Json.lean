import LineCoach.Text.Quoted

/-!
# JSON values and their text

Members of an object keep their order. The text is indented by two spaces a level; empty
arrays and objects stay on one line.
-/

namespace LineCoach

/-- A JSON value without fractions, which no report has. -/
inductive JsonValue where
  | null
  | boolean (value : Bool)
  | number (value : Nat)
  | string (value : String)
  | array (items : List JsonValue)
  | object (members : List (String × JsonValue))

namespace JsonValue

/-- The escape of one character, which is the character itself when it needs none. -/
def escape (c : Char) : List Char :=
  if c = '"' || c = '\\' then ['\\', c]
  else if c = '\n' then ['\\', 'n']
  else if c = '\r' then ['\\', 'r']
  else if c = '\t' then ['\\', 't']
  else if c.toNat = 0x08 then ['\\', 'b']
  else if c.toNat = 0x0C then ['\\', 'f']
  else if c.toNat < 0x20 then ['\\', 'u', '0', '0'] ++ Text.hexByte c.toNat
  else [c]

/-- A string between double quotes. -/
def quote (text : String) : String :=
  String.ofList (['"'] ++ text.toList.flatMap escape ++ ['"'])

/-- The blanks in front of a line at this depth. -/
def indent (depth : Nat) : String :=
  String.ofList (List.replicate (2 * depth) ' ')

/-- Lay out the rendered items of a list between two brackets, one item a line. -/
def block (left right : String) (depth : Nat) (items : List String) : String :=
  if items.isEmpty then left ++ right
  else
    left ++ "\n"
      ++ String.intercalate ",\n" (items.map (indent (depth + 1) ++ ·))
      ++ "\n" ++ indent depth ++ right

mutual

/-- The text of a value whose first line stands at `depth`. -/
def renderAt (depth : Nat) : JsonValue → String
  | null => "null"
  | boolean true => "true"
  | boolean false => "false"
  | number value => toString value
  | string value => quote value
  | array items => block "[" "]" depth (renderItems (depth + 1) items)
  | object members => block "\x7b" "\x7d" depth (renderMembers (depth + 1) members)

/-- The texts of the items of an array. -/
def renderItems (depth : Nat) : List JsonValue → List String
  | [] => []
  | item :: rest => renderAt depth item :: renderItems depth rest

/-- The texts of the members of an object. -/
def renderMembers (depth : Nat) : List (String × JsonValue) → List String
  | [] => []
  | (name, value) :: rest => (quote name ++ ": " ++ renderAt depth value) :: renderMembers depth rest

end

/-- The text of a value. -/
def render (value : JsonValue) : String :=
  value.renderAt 0

end JsonValue

end LineCoach
