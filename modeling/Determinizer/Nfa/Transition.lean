/-! Transitions as they are written down: a state, a symbol, and a list of next states in any order
and with any repetition. A list of transitions denotes the triples that it spells out, and a run
over a word strings such triples together. -/

namespace Determinizer

structure Transition where
  state : String
  symbol : String
  nextStates : List String
deriving DecidableEq, Repr, Inhabited

namespace Transition

def Denotes (ts : List Transition) (q a p : String) : Prop :=
  ∃ t ∈ ts, t.state = q ∧ t.symbol = a ∧ p ∈ t.nextStates

inductive Run (ts : List Transition) : String → List String → String → Prop
  | nil (q : String) : Run ts q [] q
  | cons {q a p r : String} {w : List String} :
    Denotes ts q a p → Run ts p w r → Run ts q (a :: w) r

theorem denotes_nil {q a p : String} : ¬ Denotes [] q a p := by simp [Denotes]

theorem denotes_append {ts us : List Transition} {q a p : String} :
    Denotes (ts ++ us) q a p ↔ Denotes ts q a p ∨ Denotes us q a p := by
  simp [Denotes, or_and_right, exists_or]

theorem run_nil_iff {ts : List Transition} {q p : String} : Run ts q [] p ↔ q = p :=
  ⟨fun h => by cases h; rfl, fun h => h ▸ .nil q⟩

theorem run_cons_iff {ts : List Transition} {q a r : String} {w : List String} :
    Run ts q (a :: w) r ↔ ∃ p, Denotes ts q a p ∧ Run ts p w r :=
  ⟨fun h => by cases h with | cons h h' => exact ⟨_, h, h'⟩, fun ⟨_, h, h'⟩ => .cons h h'⟩

end Transition
end Determinizer
