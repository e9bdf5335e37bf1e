import Determinizer.Dfa.Table

/-! Tables laid out in cells: a column for the name, one for each symbol of the alphabet, and one
for the mark of accepting rows. -/

namespace Determinizer

structure Wording (α : Type) where
  state : α
  accepting : α
  noTransition : α
  mark : α
  noMark : α

namespace Wording
variable {α β : Type} (w : Wording α)

def map (f : α → β) : Wording β :=
  ⟨f w.state, f w.accepting, f w.noTransition, f w.mark, f w.noMark⟩

def header (alphabet : List α) : List α := w.state :: alphabet ++ [w.accepting]

def cells (name : α) (targets : List (Option α)) (accepting : Bool) : List α :=
  name :: targets.map (·.getD w.noTransition) ++ [if accepting then w.mark else w.noMark]

end Wording

def wording : Wording String := ⟨"State", "Accepting", "∅", "✓", ""⟩

def Row.cells (r : Row String) (alphabet : List String) : List String :=
  wording.cells r.name (alphabet.map r.target?) r.accepting

theorem Row.cells_eq (r : Row String) (alphabet : List String) :
    r.cells alphabet = r.name :: alphabet.map (fun a => (r.target? a).getD "∅") ++
      [if r.accepting then "✓" else ""] := by
  rw [cells, Wording.cells, List.map_map]
  rfl

namespace Table

def header (alphabet : List String) : List String := wording.header alphabet

def cells (t : Table) (alphabet : List String) : List (List String) := t.map (·.cells alphabet)

end Table

end Determinizer
