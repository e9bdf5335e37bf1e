import Determinizer.Dfa.Table

/-! Counts of a table: its rows, their transitions, and the rows that accept. -/

namespace Determinizer

structure Statistics where
  states : Nat
  transitions : Nat
  accepting : Nat
deriving DecidableEq, Repr

def Table.statistics (t : Table) : Statistics where
  states := t.length
  transitions := (t.flatMap (·.transitions)).length
  accepting := t.countP (·.accepting)

end Determinizer
