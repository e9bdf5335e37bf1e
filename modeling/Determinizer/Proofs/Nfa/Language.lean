import Determinizer.Proofs.Exploration.Reachable
import Determinizer.Proofs.Key.Separation
import Determinizer.Proofs.Nfa.Denotation

/-! The language of a table. Under an unambiguous delimiter the key of a set of atomic labels is
read back as that set, so a step between keys is a step between sets, and a run of the table follows
the sets to which the automaton leads. -/

namespace Determinizer

theorem Table.row?_of_mem {ks : List String} {row : String → Row String}
    (hrow : ∀ k, (row k).name = k) {k : String} (hk : k ∈ ks) :
    Table.row? (ks.map row) k = some (row k) := by
  induction ks with
  | nil => exact absurd hk (by simp)
  | cons l ks ih =>
    rw [row?, List.map_cons, List.find?_cons]
    by_cases hl : l = k
    · subst hl
      simp [hrow]
    · have hmem : k ∈ ks := (List.mem_cons.1 hk).resolve_left fun h => hl h.symm
      rw [hrow, decide_eq_false hl]
      exact ih hmem

namespace Nfa

variable {N : Nfa} {delimiter : String} {S : Members}

theorem row?_determinize {k : String} (h : N.Reachable delimiter k) :
    (N.determinize delimiter).row? k = some (N.row delimiter k) := by
  obtain ⟨ks, hrows, -, -, hks⟩ := exists_keys N delimiter
  rw [hrows]
  exact Table.row?_of_mem (fun _ => rfl) ((hks k).2 h)

def AtomicDestinations (N : Nfa) (delimiter : String) : Prop :=
  ∀ q a p, p ∈ N.transitions.destinations q a → Key.Atomic delimiter p

theorem AtomicDestinations.next (h : N.AtomicDestinations delimiter) (states : List String)
    (a : String) : ∀ p ∈ N.transitions.next states a, Key.Atomic delimiter p := by
  intro p hp
  obtain ⟨q, -, hq⟩ := TransitionMap.mem_next.1 hp
  exact h q a p hq

theorem step?_ofMembers (hdelim : Key.Unambiguous delimiter)
    (hN : N.AtomicDestinations delimiter) (hS : ∀ q ∈ S, Key.Atomic delimiter q) (a : String) :
    N.step? delimiter (Key.ofMembers delimiter S) a =
      if N.transitions.next S.toList a = ∅ then none
      else some (Key.ofMembers delimiter (N.transitions.next S.toList a)) := by
  have hread := hdelim.members_ofMembers hS
  have hkey : Key.ofKeys delimiter (N.transitions.next S.toList a).toList =
      Key.ofMembers delimiter (N.transitions.next S.toList a) := by
    rw [Key.ofKeys_of_atomic fun p hp => hN.next S.toList a p hp, Members.ofList_toList]
  split
  · next hnone =>
    rw [Option.eq_none_iff_forall_ne_some]
    intro k hk
    rw [step?_eq_some_iff, hread] at hk
    exact hk.1 hnone
  · next hsome =>
    rw [step?_eq_some_iff, hread]
    exact ⟨hsome, hkey.symm⟩

theorem runFrom_determinize (hdelim : Key.Unambiguous delimiter)
    (hN : N.AtomicDestinations delimiter) {w : List String} (hw : ∀ a ∈ w, a ∈ N.alphabet)
    (hS : ∀ q ∈ S, Key.Atomic delimiter q)
    (hreach : N.Reachable delimiter (Key.ofMembers delimiter S)) :
    (N.determinize delimiter).runFrom (Key.ofMembers delimiter S) w =
      if w ≠ [] ∧ N.transitions.nextAll S w = ∅ then none
      else some (N.row delimiter (Key.ofMembers delimiter (N.transitions.nextAll S w))) := by
  induction w generalizing S with
  | nil =>
    rw [Table.runFrom, row?_determinize hreach]
    simp [TransitionMap.nextAll]
  | cons a w ih =>
    have ha : a ∈ N.alphabet := hw a List.mem_cons_self
    have hstep := step?_ofMembers hdelim hN hS a
    have hrun : (N.determinize delimiter).runFrom (Key.ofMembers delimiter S) (a :: w) =
        (N.step? delimiter (Key.ofMembers delimiter S) a).bind
          fun k => (N.determinize delimiter).runFrom k w := by
      rw [Table.runFrom, row?_determinize hreach]
      change ((N.row delimiter (Key.ofMembers delimiter S)).target? a).bind _ = _
      rw [target?_row, if_pos ha]
    rw [hrun, hstep, TransitionMap.nextAll]
    -- once a set is empty, all that follow are
    by_cases hnone : N.transitions.next S.toList a = ∅
    · rw [if_pos hnone, hnone, TransitionMap.nextAll_empty]
      simp
    · rw [if_neg hnone] at hstep ⊢
      have htail := ih (fun b hb => hw b (List.mem_cons_of_mem a hb))
        (hN.next S.toList a) (hreach.of_step? ha hstep)
      rw [Option.bind_some, htail]
      by_cases hwnil : w = []
      · subst hwnil
        simp [TransitionMap.nextAll, hnone]
      · simp [hwnil]

end Nfa

namespace Config

variable {c : Config} {delimiter : String} {w : List String}

def Reaches (c : Config) (delimiter : String) (w : List String) (p : String) : Prop :=
  ∃ q ∈ Key.members delimiter c.initialState, Transition.Run c.transitions q w p

def reached (c : Config) (delimiter : String) (w : List String) : Members :=
  c.toNfa.transitions.nextAll (Key.memberSet delimiter [c.initialState]) w

theorem mem_reached {p : String} : p ∈ c.reached delimiter w ↔ c.Reaches delimiter w p := by
  have hinit : ∀ q, q ∈ Key.memberSet delimiter [c.initialState] ↔
      q ∈ Key.members delimiter c.initialState := by
    intro q
    simp
  rw [reached, Reaches, toNfa, TransitionMap.mem_nextAll]
  simp only [hinit]

theorem reached_eq_empty_iff : c.reached delimiter w = ∅ ↔ ∀ p, ¬ c.Reaches delimiter w p := by
  constructor
  · intro h p hp
    rw [← mem_reached, h] at hp
    exact Members.not_mem_empty p hp
  · intro h
    ext p
    rw [mem_reached]
    exact iff_of_false (h p) (Members.not_mem_empty p)

theorem atomicDestinations (h : c.checkLabels delimiter = .ok ()) :
    c.toNfa.AtomicDestinations delimiter := by
  intro q a p hp
  obtain ⟨t, ht, -, -, hpt⟩ := TransitionMap.mem_destinations_ofTransitions.1 hp
  refine atomic_of_checkLabels h ?_
  rw [labels, List.mem_append, List.mem_flatMap]
  exact .inr ⟨t, ht, List.mem_cons_of_mem _ hpt⟩

theorem atomic_of_mem_reached (h : c.checkLabels delimiter = .ok ()) :
    ∀ p ∈ c.reached delimiter w, Key.Atomic delimiter p := by
  have hmem : ∀ (w : List String) (S : Members), (∀ q ∈ S, Key.Atomic delimiter q) →
      ∀ p ∈ c.toNfa.transitions.nextAll S w, Key.Atomic delimiter p := by
    intro w
    induction w with
    | nil => exact fun S hS => hS
    | cons a w ih =>
      intro S _
      exact ih _ ((atomicDestinations h).next S.toList a)
  exact hmem w _ fun q hq => Key.atomic_of_mem_memberSet hq

theorem run_determinize (hlabels : c.checkLabels delimiter = .ok ())
    (hdelim : Key.Unambiguous delimiter) (hw : ∀ a ∈ w, a ∈ c.alphabet) :
    (c.determinize delimiter).run w =
      if w ≠ [] ∧ c.reached delimiter w = ∅ then none
      else some (c.toNfa.row delimiter (Key.ofMembers delimiter (c.reached delimiter w))) := by
  rw [Table.run, determinize, Nfa.head?_determinize]
  exact Nfa.runFrom_determinize hdelim (atomicDestinations hlabels) hw
    (fun q hq => Key.atomic_of_mem_memberSet hq) .start

/-- The run of a word ends in the row of the states to which the word leads, and there is none
exactly if it leads nowhere after at least one symbol. So the table accepts what the configuration
does. -/
theorem run_determinize_reaches (hlabels : c.checkLabels delimiter = .ok ())
    (hdelim : Key.Unambiguous delimiter) (hw : ∀ a ∈ w, a ∈ c.alphabet) :
    (∀ r, (c.determinize delimiter).run w = some r →
      Increasing (Key.members delimiter r.name) ∧
      (∀ p, p ∈ Key.members delimiter r.name ↔ c.Reaches delimiter w p) ∧
      (r.accepting = true ↔ ∃ p ∈ c.acceptingStates, c.Reaches delimiter w p)) ∧
    ((c.determinize delimiter).run w = none ↔ w ≠ [] ∧ ∀ p, ¬ c.Reaches delimiter w p) ∧
    ((c.determinize delimiter).accepts w = true ↔ c.Accepts delimiter w) := by
  have hread := hdelim.members_ofMembers (atomic_of_mem_reached hlabels (w := w))
  have hacc : (c.toNfa.row delimiter (Key.ofMembers delimiter (c.reached delimiter w))).accepting =
      true ↔ ∃ p ∈ c.acceptingStates, c.Reaches delimiter w p := by
    rw [Nfa.accepting_row, hread]
    simp only [← Members.mem_def, mem_reached]
    exact ⟨fun ⟨p, hp, ha⟩ => ⟨p, ha, hp⟩, fun ⟨p, ha, hp⟩ => ⟨p, hp, ha⟩⟩
  have hboth : (∃ p ∈ c.acceptingStates, c.Reaches delimiter w p) ↔ c.Accepts delimiter w :=
    ⟨fun ⟨p, hp, q, hq, hrun⟩ => ⟨q, hq, p, hp, hrun⟩,
      fun ⟨q, hq, p, hp, hrun⟩ => ⟨p, hp, q, hq, hrun⟩⟩
  rw [Table.accepts, run_determinize hlabels hdelim hw]
  split
  · next hnone =>
    have hnowhere := reached_eq_empty_iff.1 hnone.2
    have hreject : ¬ c.Accepts delimiter w := by
      rw [← hboth]
      rintro ⟨p, -, hp⟩
      exact hnowhere p hp
    exact ⟨fun r hr => absurd hr (by simp), by simpa using ⟨hnone.1, hnowhere⟩,
      iff_of_false (by simp) hreject⟩
  · next hsome =>
    refine ⟨fun r hr => ?_, ?_, hacc.trans hboth⟩
    · obtain rfl := Option.some.inj hr
      change Increasing (Key.members delimiter (Key.ofMembers delimiter _)) ∧
        (∀ p, p ∈ Key.members delimiter (Key.ofMembers delimiter _) ↔ _) ∧ _
      rw [hread]
      exact ⟨Members.increasing _, fun p => mem_reached, hacc⟩
    · rw [reached_eq_empty_iff] at hsome
      exact iff_of_false (by simp) hsome

def twoStates : Config where
  states := ["q0", "q1"]
  alphabet := ["a", "b"]
  transitions := [⟨"q0", "a", ["q0", "q1"]⟩, ⟨"q1", "b", ["q1"]⟩]
  initialState := "q1=>q0"
  acceptingStates := ["q1"]

theorem run_twoStates_reaches :
    twoStates.checkLabels "=>" = .ok () ∧ Key.Unambiguous "=>" ∧
      (∃ r, (twoStates.determinize "=>").run ["a", "b"] = some r ∧ r.name = "q1" ∧
        ∀ p, p ∈ ["q1"] ↔ twoStates.Reaches "=>" ["a", "b"] p) ∧
      ((twoStates.determinize "=>").run ["b", "a"] = none ∧
        ∀ p, ¬ twoStates.Reaches "=>" ["b", "a"] p) := by
  have hlabels : twoStates.checkLabels "=>" = .ok () := by cbv
  have hdelim : Key.Unambiguous "=>" := by decide
  have hyes := run_determinize_reaches (w := ["a", "b"]) hlabels hdelim (by decide)
  have hno := run_determinize_reaches (w := ["b", "a"]) hlabels hdelim (by decide)
  have hrow : (twoStates.determinize "=>").run ["a", "b"] = some ⟨"q1", true, [("b", "q1")]⟩ := by
    cbv
  have hnone : (twoStates.determinize "=>").run ["b", "a"] = none := by cbv
  have hread : Key.members "=>" "q1" = ["q1"] := by cbv
  refine ⟨hlabels, hdelim, ⟨_, hrow, rfl, ?_⟩, hnone, (hno.2.1.1 hnone).2⟩
  rw [← hread]
  exact (hyes.1 _ hrow).2.1

end Config
end Determinizer
