import LineCoach.Path.Basic
import LineCoach.Text.Lossy

/-!
# Paths in bytes

A file system knows a path by its bytes, of which only slashes and dots mean anything to it. The
bytes need not be the encoding of a text. Who wants to hold such a path against texts reads it, as a
whole or name by name, and what is no character becomes U+FFFD. Different names can thereby be read
alike.
-/

namespace LineCoach

/-- A path in the bytes of the file system. -/
structure RawPath where
  bytes : List UInt8
deriving DecidableEq, Repr, Inhabited

namespace RawPath

/-- The parts between slashes, empty ones included. -/
def parts (path : RawPath) : List (List UInt8) :=
  path.bytes.splitOnP (· = 0x2F)

/-- Whether a part is an ordinary name, which is not empty and neither one dot nor two. -/
def isName (part : List UInt8) : Bool :=
  part ≠ [] && part ≠ [0x2E] && part ≠ [0x2E, 0x2E]

/-- The ordinary names of the path, in order. -/
def names (path : RawPath) : List (List UInt8) :=
  path.parts.filter isName

/-- Whether the path starts at the root. -/
def isAbsolute (path : RawPath) : Bool :=
  path.bytes.head? = some 0x2F

/-- The path `rest` seen from `base`. An absolute `rest` stands for itself. -/
def join (base rest : RawPath) : RawPath :=
  if rest.isAbsolute then rest
  else if base.bytes.getLast? = some 0x2F || base.bytes = [] then ⟨base.bytes ++ rest.bytes⟩
  else ⟨base.bytes ++ 0x2F :: rest.bytes⟩

/-- The path read as text. -/
def lossyText (path : RawPath) : String :=
  String.ofList (Text.lossy path.bytes)

/-- The ordinary names of the path, each read as text. -/
def lossyNames (path : RawPath) : List String :=
  path.names.map fun name => String.ofList (Text.lossy name)

end RawPath

/-- The bytes of a path that is given as text. -/
def Path.raw (path : Path) : RawPath :=
  ⟨Text.encode path.text.toList⟩

end LineCoach
