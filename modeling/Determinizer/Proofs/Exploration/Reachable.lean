import Mathlib
import Determinizer.Proofs.Exploration.Rounds
import Determinizer.Proofs.Nfa.Rows

/-! The keys of a table. A key is reachable if steps on symbols of the alphabet lead to it from the
canonical initial key. An exploration discovers reachable keys only, and it ends when the targets of
all processed keys are processed: then it has a row for each reachable key. It must end, because
every reachable key but the first one names labels to which destinations refer. -/

namespace Determinizer

theorem length_selections {α : Type} (l : List α) : (selections l).length = 2 ^ l.length := by
  induction l with
  | nil => rfl
  | cons a l ih =>
    rw [selections, List.length_append, List.length_map, ih, List.length_cons]
    omega

theorem Nfa.length_targetKeys (N : Nfa) (delimiter : String) :
    (N.targetKeys delimiter).length =
      2 ^ (Key.memberSet delimiter N.transitions.allDestinations).toList.length := by
  rw [targetKeys, List.length_map, length_selections]

inductive Nfa.Reachable (N : Nfa) (delimiter : String) : String → Prop
  | start : Reachable N delimiter (Key.canonical delimiter N.initial)
  | step {k a : String} : Reachable N delimiter k → a ∈ N.alphabet →
    N.transitions.next (Key.members delimiter k) a ≠ ∅ →
    Reachable N delimiter
      (Key.ofKeys delimiter (N.transitions.next (Key.members delimiter k) a).toList)

theorem Nfa.Reachable.of_step? {N : Nfa} {delimiter k a k' : String} (h : N.Reachable delimiter k)
    (ha : a ∈ N.alphabet) (hstep : N.step? delimiter k a = some k') :
    N.Reachable delimiter k' := by
  obtain ⟨hne, rfl⟩ := step?_eq_some_iff.1 hstep
  exact h.step ha hne

namespace Exploration

variable {N : Nfa} {delimiter : String} {e e' : Exploration} {n : Nat}

structure Explored (N : Nfa) (delimiter : String) (e : Exploration) : Prop where
  orderly : Orderly N delimiter e
  first : e.discovered.head? = some (Key.canonical delimiter N.initial)
  reachable : ∀ k ∈ e.discovered, N.Reachable delimiter k
  closed : ∀ k ∈ e.processed, N.targets delimiter k ⊆ e.discovered

theorem explored_start (N : Nfa) (delimiter : String) :
    Explored N delimiter (start (Key.canonical delimiter N.initial)) where
  orderly := orderly_start N delimiter _
  first := rfl
  reachable k hk := by
    have hstart : k = Key.canonical delimiter N.initial := by simpa [discovered, start] using hk
    rw [hstart]
    exact .start
  closed k hk := absurd hk (by simp [start])

theorem Explored.of_advance (h : Explored N delimiter e) (he : e.advance N delimiter = some e') :
    Explored N delimiter e' := by
  obtain ⟨key, rest, hq, ho, hp, hd⟩ := h.orderly.of_advance he
  have hkey : key ∈ e.discovered := by
    rw [discovered, hq]
    exact List.mem_append_right _ List.mem_cons_self
  have hgrow : e.discovered <+: e'.discovered := hd ▸ prefix_foldl_appendNew _ _
  refine ⟨ho, ?_, ?_, ?_⟩
  · obtain ⟨t, ht⟩ := hgrow
    rw [← ht, List.head?_append, h.first]
    rfl
  · intro k hk
    rw [hd, mem_foldl_appendNew] at hk
    rcases hk with hk | hk
    · exact h.reachable k hk
    · obtain ⟨a, ha, hstep⟩ := Nfa.mem_targets.1 hk
      exact (h.reachable key hkey).of_step? ha hstep
  · intro k hk
    rw [hp, List.mem_append, List.mem_singleton] at hk
    rcases hk with hk | rfl
    · exact fun l hl => hgrow.subset (h.closed k hk hl)
    · intro l hl
      rw [hd, mem_foldl_appendNew]
      exact .inr hl

theorem Rounds.explored (h : Rounds N delimiter n e e') (he : Explored N delimiter e) :
    Explored N delimiter e' :=
  h.keep (fun _ _ hex hadv => hex.of_advance hadv) he

theorem Explored.mem_processed_iff (h : Explored N delimiter e) (hq : e.queue = []) {k : String} :
    k ∈ e.processed ↔ N.Reachable delimiter k := by
  have hall := discovered_of_queue_eq_nil hq
  constructor
  · intro hk
    exact h.reachable k (hall ▸ hk)
  · intro hk
    induction hk with
    | start =>
      rw [← hall]
      exact List.mem_of_mem_head? h.first
    | step _ ha hne ih =>
      have hstep := Nfa.step?_eq_some_iff.2 ⟨hne, rfl⟩
      rw [← hall]
      exact h.closed _ ih (Nfa.mem_targets.2 ⟨_, ha, hstep⟩)

end Exploration

namespace Nfa

variable {N : Nfa} {delimiter : String}

theorem Reachable.eq_or_mem_targetKeys {k : String} (h : N.Reachable delimiter k) :
    k = Key.canonical delimiter N.initial ∨ k ∈ N.targetKeys delimiter := by
  cases h with
  | start => exact .inl rfl
  | step _ _ hne => exact .inr (step?_mem_targetKeys (step?_eq_some_iff.2 ⟨hne, rfl⟩))

theorem length_le_of_reachable {ks : List String} (hnodup : ks.Nodup)
    (h : ∀ k ∈ ks, N.Reachable delimiter k) :
    ks.length ≤ 1 + 2 ^ (Key.memberSet delimiter N.transitions.allDestinations).toList.length := by
  have hsub : ks ⊆ Key.canonical delimiter N.initial :: N.targetKeys delimiter := by
    intro k hk
    rcases (h k hk).eq_or_mem_targetKeys with rfl | hmem
    · exact List.mem_cons_self
    · exact List.mem_cons_of_mem _ hmem
  have hlen := (hnodup.subperm hsub).length_le
  rw [List.length_cons, length_targetKeys] at hlen
  omega

theorem exists_exploration (N : Nfa) (delimiter : String) :
    ∃ n e, Exploration.Rounds N delimiter n
        (Exploration.start (Key.canonical delimiter N.initial)) e ∧
      e.queue = [] ∧ N.determinize delimiter = e.rows ∧ Exploration.Explored N delimiter e := by
  have hfin := Exploration.rounds_finish N delimiter
    (Exploration.start (Key.canonical delimiter N.initial))
  obtain ⟨⟨n, hn⟩, hq⟩ := hfin
  exact ⟨n, _, hn, hq, rfl, hn.explored (Exploration.explored_start N delimiter)⟩

theorem exists_keys (N : Nfa) (delimiter : String) :
    ∃ ks : List String, N.determinize delimiter = ks.map (N.row delimiter) ∧ ks.Nodup ∧
      ks.head? = some (Key.canonical delimiter N.initial) ∧
      ∀ k, k ∈ ks ↔ N.Reachable delimiter k := by
  obtain ⟨n, e, -, hq, hrows, hex⟩ := exists_exploration N delimiter
  have hall := Exploration.discovered_of_queue_eq_nil hq
  refine ⟨e.processed, ?_, ?_, ?_, fun k => hex.mem_processed_iff hq⟩
  · rw [hrows, hex.orderly.rows]
  · rw [← hall]
    exact hex.orderly.nodup
  · rw [← hall]
    exact hex.first

theorem mem_determinize_iff {r : Row String} : r ∈ N.determinize delimiter ↔
    ∃ k, N.Reachable delimiter k ∧ N.row delimiter k = r := by
  obtain ⟨ks, hrows, -, -, hks⟩ := exists_keys N delimiter
  simp only [hrows, List.mem_map, hks]

theorem head?_determinize (N : Nfa) (delimiter : String) : (N.determinize delimiter).head? =
    some (N.row delimiter (Key.canonical delimiter N.initial)) := by
  obtain ⟨ks, hrows, -, hfirst, -⟩ := exists_keys N delimiter
  rw [hrows, List.head?_map, hfirst]
  rfl

/-- The table is the part of the key automaton that is reachable from the initial key. -/
theorem determinize_lists_reachable (N : Nfa) (delimiter : String) :
    ((N.determinize delimiter).map Row.name).Nodup ∧
    ((N.determinize delimiter).map Row.name).head? = some (Key.canonical delimiter N.initial) ∧
    (∀ k, k ∈ (N.determinize delimiter).map Row.name ↔ N.Reachable delimiter k) ∧
    ∀ r ∈ N.determinize delimiter,
      (r.transitions.map Prod.fst).Nodup ∧
      (∀ a k, (a, k) ∈ r.transitions ↔
        a ∈ N.alphabet ∧ N.transitions.next (Key.members delimiter r.name) a ≠ ∅ ∧
          k = Key.ofKeys delimiter (N.transitions.next (Key.members delimiter r.name) a).toList) ∧
      (∀ a k, (a, k) ∈ r.transitions → k ∈ (N.determinize delimiter).map Row.name) ∧
      (r.accepting = true ↔ ∃ q ∈ Key.members delimiter r.name, q ∈ N.accepting) := by
  obtain ⟨ks, hrows, hnodup, hfirst, hks⟩ := exists_keys N delimiter
  have hnames : (N.determinize delimiter).map Row.name = ks := by
    rw [hrows, List.map_map]
    exact List.map_id ks
  rw [hnames]
  refine ⟨hnodup, hfirst, hks, fun r hr => ?_⟩
  rw [hrows] at hr
  obtain ⟨k, hk, rfl⟩ := List.mem_map.1 hr
  refine ⟨nodup_symbols_row N delimiter k, fun a l => ?_, fun a l hl => ?_, accepting_row⟩
  · rw [mem_transitions_row, step?_eq_some_iff]
    rfl
  · obtain ⟨ha, hstep⟩ := mem_transitions_row.1 hl
    exact (hks l).2 (((hks k).1 hk).of_step? ha hstep)

/-- The exploration ends, and it takes one round for each row. No run of it takes more rounds than
there are sets of labels that destinations name, and one for the initial key. -/
theorem rounds_le_and_end (N : Nfa) (delimiter : String) :
    let start := Exploration.start (Key.canonical delimiter N.initial)
    let bound := 1 + 2 ^ (Key.memberSet delimiter N.transitions.allDestinations).toList.length
    (∀ n e, Exploration.Rounds N delimiter n start e → n ≤ bound) ∧
    (∃ e, Exploration.Rounds N delimiter (N.determinize delimiter).length start e ∧
      e.queue = [] ∧ N.determinize delimiter = e.rows) ∧
    (N.determinize delimiter).length ≤ bound := by
  intro start bound
  have hstart := Exploration.explored_start N delimiter
  have hle : ∀ n e, Exploration.Rounds N delimiter n start e → n ≤ bound := by
    intro n e h
    have hlen := h.length_processed_of_start
    have hex := h.explored hstart
    have hnodup := (List.nodup_append.1 hex.orderly.nodup).1
    have hcount := length_le_of_reachable hnodup fun k hk =>
      hex.reachable k (List.mem_append_left _ hk)
    rwa [hlen] at hcount
  obtain ⟨n, e, hn, hq, hrows, hex⟩ := exists_exploration N delimiter
  have hlen : (N.determinize delimiter).length = n := by
    rw [hrows, hex.orderly.rows, List.length_map]
    exact hn.length_processed_of_start
  rw [hlen]
  exact ⟨hle, ⟨e, hn, hq, hrows⟩, hle n e hn⟩

end Nfa
end Determinizer
