import Determinizer.Dfa.Exploration

/-! NFA configurations: what a user writes down and saves. The listed states take no part in the
construction; they matter for the check of the labels alone. -/

namespace Determinizer

structure Config where
  states : List String
  alphabet : List String
  transitions : List Transition
  initialState : String
  acceptingStates : List String
deriving DecidableEq, Repr, Inhabited

namespace Config

def empty : Config := ⟨[], [], [], "", []⟩

/-- Every state label, declared or used. The key of the initial states is none. -/
def labels (c : Config) : List String :=
  c.states ++ c.acceptingStates ++ c.transitions.flatMap fun t => t.state :: t.nextStates

def Accepts (c : Config) (delimiter : String) (w : List String) : Prop :=
  ∃ q ∈ Key.members delimiter c.initialState, ∃ p ∈ c.acceptingStates,
    Transition.Run c.transitions q w p

def toNfa (c : Config) : Nfa where
  alphabet := c.alphabet
  transitions := .ofTransitions c.transitions
  initial := c.initialState
  accepting := c.acceptingStates

def determinize (c : Config) (delimiter : String) : Table := c.toNfa.determinize delimiter

end Config
end Determinizer
