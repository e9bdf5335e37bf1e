import Determinizer.Json.Error

/-! Readers of parts of a JSON text. A reader consumes a beginning of the text and returns what is
left, with a proof that it is shorter. A fault is recorded by the length of the text from its place
on, so that no reader needs to know where in the whole text it is. -/

namespace Determinizer.Json

/-- Where and why reading stops; `left` counts the characters from the fault to the end. -/
inductive Stop where
  | malformed (problem : Problem) (left : Nat)
  | limit (limit : Limit)
deriving DecidableEq, Repr

abbrev Below (s : List Char) := { r : List Char // r.length < s.length }

abbrev Reader (α : Type) := (s : List Char) → Except Stop (α × Below s)

def isSpace (c : Char) : Bool := c = ' ' || c = '\t' || c = '\n' || c = '\r'

def skipSpace (s : List Char) : List Char := s.dropWhile isSpace

theorem length_skipSpace_le (s : List Char) : (skipSpace s).length ≤ s.length :=
  (List.dropWhile_suffix _).length_le

theorem length_le_of_skipSpace {s r : List Char} {c : Char} (h : skipSpace s = c :: r) :
    r.length < s.length := by
  have := length_skipSpace_le s
  rw [h, List.length_cons] at this
  exact this

end Determinizer.Json
