/-!
# Lines of a text

A text is cut after each newline, so that a line keeps its terminator and the lines put
together again are the text. A line is long when it has more characters than a limit allows,
the newline counted: one hundred letters and a newline are too many for a limit of one hundred.
-/

namespace LineCoach.Text

/-- Put a character in front of a text that is already cut: a newline closes a piece of its own. -/
def consPiece (c : Char) : List (List Char) → List (List Char)
  | [] => [[c]]
  | piece :: more => if c = '\n' then [c] :: piece :: more else (c :: piece) :: more

/-- Cut a text after each newline. Every piece ends in its only newline, except perhaps the last. -/
def pieces (text : List Char) : List (List Char) :=
  text.foldr consPiece []

@[simp]
theorem pieces_nil : pieces [] = [] := rfl

theorem pieces_cons (c : Char) (text : List Char) :
    pieces (c :: text) = consPiece c (pieces text) := rfl

theorem flatten_consPiece (c : Char) (cut : List (List Char)) :
    (consPiece c cut).flatten = c :: cut.flatten := by
  cases cut with
  | nil => rfl
  | cons piece more => simp only [consPiece]; split <;> simp

/-- The pieces put together again are the text. -/
theorem flatten_pieces (text : List Char) : (pieces text).flatten = text := by
  induction text with
  | nil => rfl
  | cons c text ih => rw [pieces_cons, flatten_consPiece, ih]

/-- A line of a text, with its terminator, and its number counted from one. -/
structure Line where
  number : Nat
  text : String
deriving DecidableEq, Repr

namespace Line

/-- Number of characters of the line, its terminator included. -/
def length (line : Line) : Nat :=
  line.text.length

/-- Whether the line has more characters than `limit`. -/
def exceeds (limit : Nat) (line : Line) : Bool :=
  limit < line.length

end Line

/-- All lines of a text, numbered from one. -/
def lines (content : String) : List Line :=
  (pieces content.toList).zipIdx.map fun (piece, index) => ⟨index + 1, String.ofList piece⟩

/-- The lines of a text with more than `limit` characters, in order. -/
def longLines (content : String) (limit : Nat) : List Line :=
  (lines content).filter (Line.exceeds limit)

end LineCoach.Text
