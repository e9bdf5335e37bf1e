import Determinizer.Dfa.Layout
import Determinizer.Dfa.Statistics
import Determinizer.Missing

/-! Rows from which fields may be missing, as a document may give them. They are laid out and
counted like complete rows, if what that needs is there. -/

namespace Determinizer

structure Row.Draft (α : Type) where
  name : Option α
  accepting : Option Bool
  transitions : Option (List (String × α))

namespace Row
variable {α : Type}

def toDraft (r : Row α) : Draft α := ⟨some r.name, some r.accepting, some r.transitions⟩

def Draft.cells (w : Wording α) (alphabet : List String) (r : Draft α) :
    Except MissingField (List α) := do
  let name ← require "name" r.name
  let targets ←
    if alphabet.isEmpty then pure []
    else do
      let transitions ← require "transitions" r.transitions
      pure (alphabet.map (transitions.lookup ·))
  let accepting ← require "isAccepting" r.accepting
  return w.cells name targets accepting

theorem cells_toDraft (r : Row String) (alphabet : List String) :
    r.toDraft.cells wording alphabet = .ok (r.cells alphabet) := by
  cases alphabet <;> rfl

def Draft.statistics (rows : List (Draft α)) : Except MissingField Statistics := do
  let transitions ← rows.mapM fun r => require "transitions" r.transitions
  let accepting ← rows.mapM fun r => require "isAccepting" r.accepting
  return ⟨rows.length, transitions.flatten.length, accepting.countP id⟩

end Row
end Determinizer
