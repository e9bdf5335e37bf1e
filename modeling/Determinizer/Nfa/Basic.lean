import Determinizer.Key
import Determinizer.Dfa.Table
import Determinizer.Nfa.TransitionMap

/-! Nondeterministic automata over labelled states, and the steps of their compound states. On a
symbol, a compound state leads to all destinations of its members together; when there are none it
leads nowhere, and not to an empty state. -/

namespace Determinizer

def TransitionMap.next (m : TransitionMap) (states : List String) (symbol : String) : Members :=
  Members.ofList (states.flatMap fun q => (m.destinations q symbol).toList)

@[simp] theorem TransitionMap.mem_next {m : TransitionMap} {states : List String}
    {symbol p : String} : p ∈ m.next states symbol ↔ ∃ q ∈ states, p ∈ m.destinations q symbol :=
  Members.mem_ofList.trans List.mem_flatMap

theorem TransitionMap.next_singleton (m : TransitionMap) (q a : String) :
    m.next [q] a = m.destinations q a := by
  rw [next, List.flatMap_singleton, Members.ofList_toList]

structure Nfa where
  alphabet : List String
  transitions : TransitionMap
  initial : String
  accepting : List String
deriving DecidableEq

namespace Nfa

variable (N : Nfa) (delimiter : String)

def step? (key symbol : String) : Option String :=
  let next := N.transitions.next (Key.members delimiter key) symbol
  if next.isEmpty then none else some (Key.ofKeys delimiter next.toList)

def acceptsKey (key : String) : Bool :=
  (Key.members delimiter key).any (· ∈ N.accepting)

def row (key : String) : Row String where
  name := key
  accepting := N.acceptsKey delimiter key
  transitions := N.alphabet.eraseDups.filterMap fun a => (N.step? delimiter key a).map (a, ·)

/-- A finite list of keys that holds everything a step can lead to: one key for each set of labels
that destinations name. -/
def targetKeys : List String :=
  (selections (Key.memberSet delimiter N.transitions.allDestinations).toList).map
    delimiter.intercalate

variable {N delimiter}

theorem ofKeys_mem_targetKeys {ks : List String} (h : ks ⊆ N.transitions.allDestinations) :
    Key.ofKeys delimiter ks ∈ N.targetKeys delimiter := by
  refine List.mem_map.2 ⟨_, mem_selections.2 ?_, rfl⟩
  refine (Members.increasing _).sublist_of_subset (Members.increasing _) fun a ha => ?_
  obtain ⟨k, hk, ha⟩ := Key.mem_memberSet.1 (Members.mem_def.2 ha)
  exact Key.mem_memberSet.2 ⟨k, h hk, ha⟩

theorem step?_mem_targetKeys {key symbol target : String}
    (h : N.step? delimiter key symbol = some target) : target ∈ N.targetKeys delimiter := by
  simp only [step?] at h
  split at h
  · exact absurd h (by simp)
  · cases h
    refine ofKeys_mem_targetKeys fun p hp => ?_
    obtain ⟨q, _, hq⟩ := TransitionMap.mem_next.1 (Members.mem_def.2 hp)
    exact TransitionMap.mem_allDestinations_of_mem_destinations hq

theorem mem_transitions_row {key a target : String} :
    (a, target) ∈ (N.row delimiter key).transitions ↔
      a ∈ N.alphabet ∧ N.step? delimiter key a = some target := by
  simp [row, List.mem_filterMap, List.mem_eraseDups]

end Nfa
end Determinizer
