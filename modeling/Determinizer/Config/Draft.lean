import Determinizer.Config.Labels
import Determinizer.Missing

/-! Drafts: configurations from which fields may be missing. What is asked of a draft needs some of
its fields and looks for them in a fixed order. A draft with all its fields is as good as the
configuration. -/

namespace Determinizer

structure Transition.Draft where
  state : Option String
  symbol : Option String
  nextStates : Option (List String)
deriving DecidableEq, Repr

structure Config.Draft where
  states : Option (List String)
  alphabet : Option (List String)
  transitions : Option (List Transition.Draft)
  initialState : Option String
  acceptingStates : Option (List String)
deriving DecidableEq, Repr

namespace Transition

def toDraft (t : Transition) : Draft := ⟨some t.state, some t.symbol, some t.nextStates⟩

def Draft.complete (t : Draft) : Except MissingField Transition := do
  let state ← require "state" t.state
  let symbol ← require "symbol" t.symbol
  let nextStates ← require "nextStates" t.nextStates
  return ⟨state, symbol, nextStates⟩

def Draft.labels (t : Draft) : Except MissingField (List String) := do
  let state ← require "state" t.state
  let nextStates ← require "nextStates" t.nextStates
  return state :: nextStates

@[simp] theorem complete_toDraft (t : Transition) : t.toDraft.complete = .ok t := rfl

@[simp] theorem labels_toDraft (t : Transition) :
    t.toDraft.labels = .ok (t.state :: t.nextStates) :=
  rfl

end Transition

namespace Config

def toDraft (c : Config) : Draft :=
  ⟨some c.states, some c.alphabet, some (c.transitions.map Transition.toDraft),
    some c.initialState, some c.acceptingStates⟩

namespace Draft
variable (c : Draft)

def complete : Except MissingField Config := do
  let states ← require "states" c.states
  let alphabet ← require "alphabet" c.alphabet
  let transitions ← (← require "transitions" c.transitions).mapM (·.complete)
  let initialState ← require "initialState" c.initialState
  let acceptingStates ← require "acceptingStates" c.acceptingStates
  return ⟨states, alphabet, transitions, initialState, acceptingStates⟩

def labels : Except MissingField (List String) := do
  let states ← require "states" c.states
  let acceptingStates ← require "acceptingStates" c.acceptingStates
  let ofTransitions ← (← require "transitions" c.transitions).mapM (·.labels)
  return states ++ acceptingStates ++ ofTransitions.flatten

def determinize (delimiter : String) : Except MissingField Table := do
  return (← c.complete).determinize delimiter

def checkLabels (delimiter : String) : Except MissingField (Except LabelFault Unit) := do
  return Determinizer.checkLabels delimiter (← c.labels)

end Draft

end Config
end Determinizer
