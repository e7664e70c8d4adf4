import LineCoach.Toml.Value

/-!
# Tables of a document

While a document is read, a table remembers how it came to be, because that decides who may add to
it. A table with a header of its own is never opened again, a table that a header only passed
through can still get a header of its own, and a table that dotted keys made grows by dotted keys
alone.
-/

namespace LineCoach.Toml

/-- How a table came to be. -/
inductive Origin where
  /-- It has a header of its own. -/
  | header
  /-- A header passed through it. -/
  | passed
  /-- Dotted keys made it. -/
  | dotted
deriving DecidableEq, Repr

/-- What a name stands for while a document is read. -/
inductive Item where
  | value (value : Value)
  | table (origin : Origin) (members : List (String × Item))
  /-- Tables that are written one after the other under the same header. -/
  | tables (elements : List (List (String × Item)))
deriving Inhabited

/-- The names of a table with what they stand for, in the order of the document. A table that gets
its header after another header passed through it has its place where its own header stands. -/
abbrev Members := List (String × Item)

namespace Members

/-- Let a name stand for an item, in place of what it stood for. -/
def set (members : Members) (name : String) (item : Item) : Members :=
  match members with
  | [] => [(name, item)]
  | (key, old) :: rest =>
    if key = name then (key, item) :: rest else (key, old) :: set rest name item

/-- Let a name stand for an item and be the last one of the table. -/
def setLast (members : Members) (name : String) (item : Item) : Members :=
  members.filter (fun member => member.1 ≠ name) ++ [(name, item)]

/-- Add a name, which must be new. -/
def add? (members : Members) (name : String) (item : Item) : Option Members :=
  match members.lookup name with
  | some _ => none
  | none => some (members ++ [(name, item)])

/-- Apply a change to the last table of a list. -/
def changeLast? (change : Members → Option Members) : List Members → Option (List Members)
  | [] => none
  | [last] => (change last).map fun changed => [changed]
  | first :: second :: more => (changeLast? change (second :: more)).map (first :: ·)

/-- Add a name to the table that dotted keys lead to from a table of this origin. Tables on the
way are made where they are missing; only tables of dotted keys take the name. -/
def addDotted? (origin : Origin) (members : Members) (path : List String) (name : String)
    (item : Item) : Option Members :=
  match path with
  | [] => if origin = .dotted then members.add? name item else none
  | key :: rest =>
    match members.lookup key with
    | none => (addDotted? .dotted [] rest name item).map fun inner =>
        members ++ [(key, .table .dotted inner)]
    | some (.value _) => none
    | some (.table .header _) => none
    | some (.table origin inner) => (addDotted? origin inner rest name item).map fun changed =>
        members.set key (.table origin changed)
    | some (.tables elements) =>
      (changeLast? (fun last => addDotted? .header last rest name item) elements).map fun changed =>
        members.set key (.tables changed)

/-- Add a key with its value to a table. -/
def addKey? (members : Members) (path : List String) (name : String) (value : Value) :
    Option Members :=
  if path.isEmpty then members.add? name (.value value)
  else members.addDotted? .header path name (.value value)

/-- The table that a header leads to, empty when it is not there yet. Of tables under one header
the last is meant. -/
def lookupPath? (members : Members) (path : List String) : Option Members :=
  match path with
  | [] => some members
  | key :: rest =>
    match members.lookup key with
    | none => some []
    | some (.value _) => none
    | some (.table _ inner) => lookupPath? inner rest
    | some (.tables elements) => elements.getLast?.bind (lookupPath? · rest)

/-- Apply a change to the table that a header leads to. Tables on the way are made where they are
missing. -/
def changePath? (change : Members → Option Members) (members : Members) (path : List String) :
    Option Members :=
  match path with
  | [] => change members
  | key :: rest =>
    match members.lookup key with
    | none => (changePath? change [] rest).map fun inner =>
        members ++ [(key, .table .passed inner)]
    | some (.value _) => none
    | some (.table origin inner) => (changePath? change inner rest).map fun changed =>
        members.set key (.table origin changed)
    | some (.tables elements) =>
      (changeLast? (fun last => changePath? change last rest) elements).map fun changed =>
        members.set key (.tables changed)

end Members

/-- A header of a document. -/
structure Header where
  /-- The tables that the header passes through. -/
  path : List String
  name : String
  /-- Whether the table is one of several under the header. -/
  isArray : Bool
deriving DecidableEq, Repr

namespace Header

/-- What a table has when its header is met: nothing, or what was put below it so far. Nothing is
answered when the header may not stand there. -/
def start? (header : Header) (document : Members) : Option Members := do
  let around ← document.lookupPath? header.path
  match around.lookup header.name, header.isArray with
  | none, _ => some []
  | some (.table .passed members), false => some members
  | some (.tables _), true => some []
  | _, _ => none

/-- Put the table of a header into the document. -/
def finish? (header : Header) (table : Members) (document : Members) : Option Members :=
  document.changePath? (fun around =>
    if header.isArray then
      match around.lookup header.name with
      | none => some (around.set header.name (.tables [table]))
      | some (.tables elements) => some (around.set header.name (.tables (elements ++ [table])))
      | some _ => none
    else some (around.setLast header.name (.table .header table))) header.path

end Header

mutual

/-- The value that an item stands for when the document is read. -/
def Item.toValue : Item → Value
  | .value value => value
  | .table _ members => .table (toMembers members)
  | .tables elements => .array (toElements elements)

/-- The members of a table as values. -/
def toMembers : List (String × Item) → List (String × Value)
  | [] => []
  | (name, item) :: rest => (name, item.toValue) :: toMembers rest

/-- Tables under one header as values. -/
def toElements : List (List (String × Item)) → List Value
  | [] => []
  | members :: rest => .table (toMembers members) :: toElements rest

end

end LineCoach.Toml
