/-! DFA tables. A row has a name, tells whether it accepts, and lists for some symbols the name of
the row that follows; the first row is the start. Names and targets of a computed table are keys;
a table that comes from a document may hold values of another kind. -/

namespace Determinizer

structure Row (α : Type) where
  name : α
  accepting : Bool
  transitions : List (String × α)
deriving DecidableEq

abbrev Table := List (Row String)

def Row.target? {α : Type} (r : Row α) (symbol : String) : Option α := r.transitions.lookup symbol

namespace Table

def row? (t : Table) (name : String) : Option (Row String) := t.find? (·.name = name)

def runFrom (t : Table) : String → List String → Option (Row String)
  | name, [] => t.row? name
  | name, a :: w => do
    let r ← t.row? name
    t.runFrom (← r.target? a) w

def run (t : Table) (w : List String) : Option (Row String) := do
  t.runFrom (← t.head?).name w

def accepts (t : Table) (w : List String) : Bool :=
  match t.run w with
  | some r => r.accepting
  | none => false

end Table
end Determinizer
