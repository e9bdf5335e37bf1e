import Determinizer.Members
import Determinizer.Nfa.Transition

/-! Transition maps: for a state and a symbol, the set of destinations. The entries are kept in the
order of states, then symbols, so equal maps are equal lists and a listing needs no sorting. An
entry may hold the empty set; such an entry differs from a missing one only until the map is
written as a list of transitions or reduced. -/

namespace Determinizer

structure Departure where
  state : String
  symbol : String
deriving DecidableEq

namespace Departure

instance : LT Departure :=
  ⟨fun d e => d.state < e.state ∨ d.state = e.state ∧ d.symbol < e.symbol⟩

theorem lt_iff {d e : Departure} :
    d < e ↔ d.state < e.state ∨ d.state = e.state ∧ d.symbol < e.symbol := Iff.rfl

instance : DecidableLT Departure := fun d e =>
  inferInstanceAs (Decidable (d.state < e.state ∨ d.state = e.state ∧ d.symbol < e.symbol))

instance : StrictLinear Departure where
  irrefl d := by simp [lt_iff]
  trans {d e f} h h' := by
    rcases h with h | ⟨h, ha⟩ <;> rcases h' with h' | ⟨h', hb⟩
    · exact .inl (StrictLinear.trans h h')
    · exact .inl (h' ▸ h)
    · exact .inl (h ▸ h')
    · exact .inr ⟨h.trans h', StrictLinear.trans ha hb⟩
  connected d e := by
    obtain ⟨q, a⟩ := d
    obtain ⟨p, b⟩ := e
    rcases StrictLinear.connected q p with h | rfl | h
    · exact .inl (.inl h)
    · rcases StrictLinear.connected a b with h | rfl | h
      · exact .inl (.inr ⟨rfl, h⟩)
      · exact .inr (.inl rfl)
      · exact .inr (.inr (.inr ⟨rfl, h⟩))
    · exact .inr (.inr (.inl h))

end Departure

structure TransitionMap where
  entries : List (Departure × Members)
  increasing : Increasing (entries.map Prod.fst)
deriving DecidableEq

namespace TransitionMap

instance : EmptyCollection TransitionMap := ⟨⟨[], List.Pairwise.nil⟩⟩

instance : Inhabited TransitionMap := ⟨∅⟩

def get? (m : TransitionMap) (d : Departure) : Option Members := m.entries.lookup d

def destinations (m : TransitionMap) (state symbol : String) : Members :=
  (m.get? ⟨state, symbol⟩).getD ∅

def put (m : TransitionMap) (d : Departure) (targets : Members) : TransitionMap :=
  ⟨putOrdered d targets m.entries, by
    rw [map_fst_putOrdered]
    exact m.increasing.insertOrdered d⟩

def filter (p : Departure × Members → Bool) (m : TransitionMap) : TransitionMap :=
  ⟨m.entries.filter p, m.increasing.sublist (List.filter_sublist.map _)⟩

def erase (m : TransitionMap) (d : Departure) : TransitionMap := m.filter (·.1 ≠ d)

def reduce (m : TransitionMap) : TransitionMap := m.filter (!·.2.isEmpty)

def isEmpty (m : TransitionMap) : Bool := m.entries.isEmpty

def ofEntries (l : List (Departure × Members)) : TransitionMap :=
  l.foldl (fun m e => m.put e.1 e.2) ∅

def add (m : TransitionMap) (t : Transition) : TransitionMap :=
  m.put ⟨t.state, t.symbol⟩ (Members.ofList t.nextStates ∪ m.destinations t.state t.symbol)

/-- The map that a list of transitions denotes: repeated departures are merged, and departures that
lead nowhere are left out. -/
def ofTransitions (ts : List Transition) : TransitionMap := (ts.foldl add ∅).reduce

def toTransitions (m : TransitionMap) : List Transition :=
  m.reduce.entries.map fun e => ⟨e.1.state, e.1.symbol, e.2.toList⟩

def allDestinations (m : TransitionMap) : List String := m.entries.flatMap (·.2.toList)

@[simp] theorem get?_empty (d : Departure) : (∅ : TransitionMap).get? d = none := rfl

@[simp] theorem get?_put (m : TransitionMap) (d e : Departure) (targets : Members) :
    (m.put d targets).get? e = if e = d then some targets else m.get? e :=
  lookup_putOrdered d e targets m.entries

theorem mem_entries_of_get? {m : TransitionMap} {d : Departure} {targets : Members}
    (h : m.get? d = some targets) : (d, targets) ∈ m.entries := by
  rw [get?] at h
  generalize m.entries = l at h ⊢
  induction l with
  | nil => simp at h
  | cons e l ih =>
    rw [List.lookup_cons] at h
    split at h
    · next he =>
      obtain ⟨d', n⟩ := e
      simp only [beq_iff_eq, Option.some.injEq] at he h
      simp [he, h]
    · exact List.mem_cons_of_mem _ (ih h)

theorem mem_allDestinations_of_mem_destinations {m : TransitionMap} {q a p : String}
    (h : p ∈ m.destinations q a) : p ∈ m.allDestinations := by
  rw [destinations] at h
  cases hg : m.get? ⟨q, a⟩ with
  | none => simp [hg] at h
  | some targets =>
    rw [hg] at h
    exact List.mem_flatMap.2 ⟨_, mem_entries_of_get? hg, h⟩

theorem mem_destinations_add {m : TransitionMap} {t : Transition} {q a p : String} :
    p ∈ (m.add t).destinations q a ↔
      t.state = q ∧ t.symbol = a ∧ p ∈ t.nextStates ∨ p ∈ m.destinations q a := by
  rw [destinations, add, get?_put]
  split
  · next h =>
    cases h
    simp
  · next h =>
    have : ¬ (t.state = q ∧ t.symbol = a) := fun ⟨hq, ha⟩ => h (by simp [hq, ha])
    rw [← destinations]
    simp only [← and_assoc, this, false_and, false_or]

end TransitionMap
end Determinizer
