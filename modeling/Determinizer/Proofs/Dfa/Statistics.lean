import Determinizer.Dfa.Statistics
import Determinizer.Proofs.Exploration.Reachable
import Determinizer.Proofs.Nfa.NormalForm

/-! Counts of an automaton and of its table. The destinations in a map are as many as the triples
that it was made of. Each row has at most one entry for a symbol, and each but the first was found
through an entry, so the entries are bounded from both sides by the rows. -/

namespace Determinizer

namespace Transition

variable {ts : List Transition} {q a p : String}

/-- What a list of transitions spells out, one triple after the other. -/
def spelled (ts : List Transition) : List (String × String × String) :=
  ts.flatMap fun t => t.nextStates.map fun p => (t.state, t.symbol, p)

def triples (ts : List Transition) : Finset (String × String × String) := (spelled ts).toFinset

theorem mem_spelled : (q, a, p) ∈ spelled ts ↔ Denotes ts q a p := by
  simp only [spelled, List.mem_flatMap, List.mem_map, Prod.mk.injEq, Denotes]
  constructor
  · rintro ⟨t, ht, p, hp, rfl, rfl, rfl⟩
    exact ⟨t, ht, rfl, rfl, hp⟩
  · rintro ⟨t, ht, rfl, rfl, hp⟩
    exact ⟨t, ht, p, hp, rfl, rfl, rfl⟩

theorem mem_triples : (q, a, p) ∈ triples ts ↔ Denotes ts q a p :=
  List.mem_toFinset.trans mem_spelled

theorem triples_normalForm (ts : List Transition) : triples (normalForm ts) = triples ts := by
  ext ⟨q, a, p⟩
  rw [mem_triples, mem_triples, denotes_normalForm]

theorem Normal.nodup_spelled (h : Normal ts) : (spelled ts).Nodup := by
  rw [spelled, List.nodup_flatMap]
  constructor
  · intro t ht
    apply (h.nextStates t ht).nodup.map
    intro p p' heq
    exact congrArg (fun e : String × String × String => e.2.2) heq
  · have hdepartures := List.pairwise_map.1 h.departures.nodup
    refine hdepartures.imp fun {t u} hne => ?_
    rintro ⟨q, a, p⟩ ht hu
    obtain ⟨_, _, heq⟩ := List.mem_map.1 ht
    obtain ⟨_, _, heq'⟩ := List.mem_map.1 hu
    cases heq
    simp only [Prod.mk.injEq] at heq'
    exact hne (departure_eq_iff.2 ⟨heq'.1.symm, heq'.2.1.symm⟩)

theorem length_spelled (ts : List Transition) :
    (spelled ts).length = (ts.map fun t => t.nextStates.length).sum := by
  rw [spelled, List.length_flatMap]
  simp only [List.length_map]

end Transition

theorem TransitionMap.length_allDestinations_ofTransitions (ts : List Transition) :
    (ofTransitions ts).allDestinations.length = (Transition.triples ts).card := by
  have hspelled : (ofTransitions ts).allDestinations.length =
      (Transition.spelled (Transition.normalForm ts)).length := by
    rw [Transition.length_spelled, Transition.normalForm, toTransitions,
      (reduced_ofTransitions ts).reduce_eq, allDestinations, List.length_flatMap, List.map_map]
    rfl
  rw [hspelled, ← Transition.triples_normalForm, Transition.triples, List.toFinset_card_of_nodup]
  exact (Transition.normal_toTransitions _).nodup_spelled

namespace Nfa

variable {N : Nfa} {d k : String}

theorem length_transitions_row_le (N : Nfa) (d k : String) :
    (N.row d k).transitions.length ≤ N.alphabet.toFinset.card := by
  have hnodup := nodup_symbols_row N d k
  rw [← List.length_map Prod.fst, ← List.toFinset_card_of_nodup hnodup]
  apply Finset.card_le_card
  intro a ha
  obtain ⟨⟨a, target⟩, hmem, rfl⟩ := List.mem_map.1 (List.mem_toFinset.1 ha)
  exact List.mem_toFinset.2 (mem_transitions_row.1 hmem).1

theorem transitions_statistics_le (N : Nfa) (d : String) :
    (N.determinize d).statistics.transitions ≤
      (N.determinize d).statistics.states * N.alphabet.toFinset.card := by
  have hrows : ∀ n ∈ (N.determinize d).map fun r => r.transitions.length,
      n ≤ N.alphabet.toFinset.card := by
    intro n hn
    obtain ⟨r, hr, rfl⟩ := List.mem_map.1 hn
    obtain ⟨k, -, rfl⟩ := mem_determinize_iff.1 hr
    exact length_transitions_row_le N d k
  have hsum := List.sum_le_card_nsmul _ _ hrows
  rwa [List.length_map, smul_eq_mul, ← List.length_flatMap] at hsum

theorem Reachable.eq_or_mem_targets (h : N.Reachable d k) : k = Key.canonical d N.initial ∨
    k ∈ ((N.determinize d).flatMap (·.transitions)).map Prod.snd := by
  cases h with
  | start => exact .inl rfl
  | @step k a hk ha hne =>
    have hentry := mem_transitions_row.2 ⟨ha, step?_eq_some_iff.2 ⟨hne, rfl⟩⟩
    have hrow : N.row d k ∈ N.determinize d := mem_determinize_iff.2 ⟨k, hk, rfl⟩
    exact .inr (List.mem_map.2 ⟨_, List.mem_flatMap.2 ⟨_, hrow, hentry⟩, rfl⟩)

theorem states_statistics_le (N : Nfa) (d : String) :
    (N.determinize d).statistics.states ≤ (N.determinize d).statistics.transitions + 1 := by
  obtain ⟨ks, hrows, hnodup, -, hks⟩ := exists_keys N d
  have hfound : ks ⊆ Key.canonical d N.initial ::
      ((N.determinize d).flatMap (·.transitions)).map Prod.snd := by
    intro k hk
    exact List.mem_cons.2 ((hks k).1 hk).eq_or_mem_targets
  have hlength := (hnodup.subperm hfound).length_le
  have hstates : (N.determinize d).statistics.states = ks.length := by
    rw [Table.statistics, hrows, List.length_map]
  rw [hstates]
  rwa [List.length_cons, List.length_map] at hlength

end Nfa
end Determinizer
