import Mathlib
import Determinizer.Proofs.Exploration.Renaming
import Determinizer.Proofs.Nfa.Denotation

/-! What a table depends on. An exploration looks up where the members of its rows lead on symbols
of the alphabet, and which of these members accept. It looks up nothing else: an entry of the map
for another state or another symbol may be there or not, and so may an entry without destinations.
-/

namespace Determinizer.Nfa

variable {N N' : Nfa} {delimiter k q : String}

def Visits (N : Nfa) (delimiter q : String) : Prop :=
  ∃ r ∈ N.determinize delimiter, q ∈ Key.members delimiter r.name

theorem Reachable.visits (h : N.Reachable delimiter k) (hq : q ∈ Key.members delimiter k) :
    N.Visits delimiter q :=
  ⟨N.row delimiter k, mem_determinize_iff.2 ⟨k, h, rfl⟩, hq⟩

theorem determinize_congr_of_visits (halphabet : N'.alphabet = N.alphabet)
    (hinitial : N'.initial = N.initial)
    (hdestinations : ∀ q, N.Visits delimiter q → ∀ a ∈ N.alphabet,
      N'.transitions.destinations q a = N.transitions.destinations q a)
    (haccepting : ∀ q, N.Visits delimiter q → (q ∈ N'.accepting ↔ q ∈ N.accepting)) :
    N'.determinize delimiter = N.determinize delimiter := by
  refine determinize_congr (by rw [hinitial]) fun k hk => ?_
  have hvisits : ∀ q ∈ Key.members delimiter k, N.Visits delimiter q := fun q hq => hk.visits hq
  exact row_congr_of_members halphabet (fun q hq => hdestinations q (hvisits q hq))
    fun q hq => haccepting q (hvisits q hq)

theorem determinize_filter {p : Departure × Members → Bool}
    (hkeep : ∀ e ∈ N.transitions.entries, N.Visits delimiter e.1.state → e.1.symbol ∈ N.alphabet →
      e.2 ≠ ∅ → p e = true) :
    ({ N with transitions := N.transitions.filter p } : Nfa).determinize delimiter =
      N.determinize delimiter := by
  refine determinize_congr_of_visits rfl rfl (fun q hq a ha => ?_) fun _ _ => Iff.rfl
  refine TransitionMap.destinations_filter fun targets hget hne => ?_
  have hentry := TransitionMap.mem_entries_of_get? hget
  exact hkeep _ hentry hq ha hne

/-- A table does not change with the map and the accepting labels as long as the members of its rows
lead to the same states on the alphabet and accept alike. In particular entries for other states or
other symbols and entries without destinations can all be left out. -/
theorem determinize_ignores_unvisited (N : Nfa) (delimiter : String) :
    (∀ (m : TransitionMap) (accepting : List String),
      (∀ r ∈ N.determinize delimiter, ∀ q ∈ Key.members delimiter r.name,
        (∀ a ∈ N.alphabet, m.destinations q a = N.transitions.destinations q a) ∧
          (q ∈ accepting ↔ q ∈ N.accepting)) →
      ({ N with transitions := m, accepting := accepting } : Nfa).determinize delimiter =
        N.determinize delimiter) ∧
    ∀ p : Departure × Members → Bool,
      (∀ e ∈ N.transitions.entries, p e = false →
        (∀ r ∈ N.determinize delimiter, e.1.state ∉ Key.members delimiter r.name) ∨
          e.1.symbol ∉ N.alphabet ∨ e.2 = ∅) →
      ({ N with transitions := N.transitions.filter p } : Nfa).determinize delimiter =
        N.determinize delimiter := by
  constructor
  · intro m accepting hagree
    have hvisited : ∀ q, N.Visits delimiter q →
        (∀ a ∈ N.alphabet, m.destinations q a = N.transitions.destinations q a) ∧
          (q ∈ accepting ↔ q ∈ N.accepting) := by
      rintro q ⟨r, hr, hq⟩
      exact hagree r hr q hq
    exact determinize_congr_of_visits rfl rfl (fun q hq => (hvisited q hq).1)
      fun q hq => (hvisited q hq).2
  · intro p hdrop
    refine determinize_filter fun e he hvisit hsymbol hne => ?_
    by_contra hp
    rcases hdrop e he (Bool.eq_false_iff.2 hp) with hstate | hother | hempty
    · obtain ⟨r, hr, hq⟩ := hvisit
      exact hstate r hr hq
    · exact hother hsymbol
    · exact hne hempty

def unvisitedEntries : Nfa where
  alphabet := ["0", "1"]
  transitions := (TransitionMap.ofTransitions
    [⟨"A", "0", ["A", "B"]⟩, ⟨"B", "1", ["A"]⟩, ⟨"C", "0", ["B"]⟩, ⟨"A", "2", ["C"]⟩]).put
      ⟨"B", "0"⟩ ∅
  initial := "A"
  accepting := ["B", "C"]

theorem determinize_unvisitedEntries :
    ({ unvisitedEntries with
        transitions := .ofTransitions [⟨"A", "0", ["A", "B"]⟩, ⟨"B", "1", ["A"]⟩]
        accepting := ["B"] } : Nfa).determinize "" = unvisitedEntries.determinize "" ∧
      ({ unvisitedEntries with transitions := unvisitedEntries.transitions.filter fun e =>
          e.1.state ≠ "C" ∧ e.1.symbol ≠ "2" ∧ e.2 ≠ ∅ } : Nfa).determinize "" =
        unvisitedEntries.determinize "" ∧
      unvisitedEntries.determinize "" =
        [⟨"A", false, [("0", "AB")]⟩, ⟨"AB", true, [("0", "AB"), ("1", "A")]⟩] := by
  have htable : unvisitedEntries.determinize "" =
      [⟨"A", false, [("0", "AB")]⟩, ⟨"AB", true, [("0", "AB"), ("1", "A")]⟩] := by cbv
  have h := determinize_ignores_unvisited unvisitedEntries ""
  refine ⟨h.1 _ _ ?_, h.2 _ ?_, htable⟩
  · rw [htable]
    decide
  · rw [htable]
    decide

end Determinizer.Nfa
