import Determinizer.Proofs.Nfa.Denotation

/-! Maps listed as transitions. The list has one transition for each departure that leads somewhere,
so it denotes what the map holds. -/

namespace Determinizer.TransitionMap

variable {m : TransitionMap} {d : Departure} {targets : Members} {t : Transition} {q a p : String}

theorem mem_entries_iff : (d, targets) ∈ m.entries ↔ m.get? d = some targets :=
  (lookup_eq_some_iff_mem m.increasing.nodup).symm

theorem mem_toTransitions : t ∈ m.toTransitions ↔
    m.destinations t.state t.symbol ≠ ∅ ∧
      t.nextStates = (m.destinations t.state t.symbol).toList := by
  have hreduce : m.destinations t.state t.symbol = m.reduce.destinations t.state t.symbol :=
    (destinations_reduce m _ _).symm
  rw [hreduce]
  constructor
  · intro h
    obtain ⟨⟨d, targets⟩, hmem, rfl⟩ := List.mem_map.1 h
    have hget := mem_entries_iff.1 hmem
    have hdestinations : m.reduce.destinations d.state d.symbol = targets := by
      rw [destinations, hget, Option.getD_some]
    have hne : targets ≠ ∅ := by
      have hkept := (List.mem_filter.1 hmem).2
      intro hempty
      rw [Members.isEmpty_iff.2 hempty] at hkept
      cases hkept
    rw [hdestinations]
    exact ⟨hne, rfl⟩
  · rintro ⟨hne, hnext⟩
    refine List.mem_map.2 ⟨(⟨t.state, t.symbol⟩, m.reduce.destinations t.state t.symbol), ?_, ?_⟩
    · refine mem_entries_of_get? ?_
      cases hget : m.reduce.get? ⟨t.state, t.symbol⟩ with
      | none =>
        rw [destinations, hget] at hne
        exact absurd rfl hne
      | some targets => rw [destinations, hget, Option.getD_some]
    · rw [← hnext]

theorem denotes_toTransitions :
    Transition.Denotes m.toTransitions q a p ↔ p ∈ m.destinations q a := by
  constructor
  · rintro ⟨t, ht, rfl, rfl, hp⟩
    rw [(mem_toTransitions.1 ht).2] at hp
    exact Members.mem_def.2 hp
  · intro hp
    refine ⟨⟨q, a, (m.destinations q a).toList⟩, mem_toTransitions.2 ⟨?_, rfl⟩, rfl, rfl,
      Members.mem_def.1 hp⟩
    intro hempty
    rw [hempty] at hp
    exact Members.not_mem_empty p hp

end Determinizer.TransitionMap
