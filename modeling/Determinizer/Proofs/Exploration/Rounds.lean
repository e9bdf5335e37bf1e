import Mathlib
import Determinizer.Dfa.Exploration

/-! Rounds of an exploration. Processed and waiting keys together are the discovered ones, in the
order of their discovery. An orderly exploration has discovered each of them once, so a round never
skips: it moves the boundary between processed and waiting keys by one, and appends those targets of
the key passed that are new. -/

namespace Determinizer

def appendNew (l : List String) (k : String) : List String := if k ∈ l then l else l ++ [k]

theorem mem_foldl_appendNew {l ks : List String} {k : String} :
    k ∈ ks.foldl appendNew l ↔ k ∈ l ∨ k ∈ ks := by
  induction ks generalizing l with
  | nil => simp
  | cons a ks ih =>
    rw [List.foldl_cons, ih, appendNew]
    split <;> grind

theorem nodup_appendNew {l : List String} (h : l.Nodup) (k : String) : (appendNew l k).Nodup := by
  rw [appendNew]
  split
  · exact h
  · next hk =>
    rw [List.nodup_append]
    refine ⟨h, by simp, fun a ha b hb => ?_⟩
    rw [List.mem_singleton] at hb
    rintro rfl
    exact hk (hb ▸ ha)

theorem prefix_foldl_appendNew (l ks : List String) : l <+: ks.foldl appendNew l := by
  induction ks generalizing l with
  | nil => exact List.prefix_rfl
  | cons a ks ih =>
    refine List.IsPrefix.trans ?_ (ih (appendNew l a))
    rw [appendNew]
    split
    · exact List.prefix_rfl
    · exact List.prefix_append l [a]

def Nfa.targets (N : Nfa) (delimiter key : String) : List String :=
  (N.row delimiter key).transitions.map Prod.snd

theorem Nfa.mem_targets {N : Nfa} {delimiter key k : String} :
    k ∈ N.targets delimiter key ↔ ∃ a ∈ N.alphabet, N.step? delimiter key a = some k := by
  rw [targets, List.mem_map]
  constructor
  · rintro ⟨⟨a, k⟩, hmem, rfl⟩
    exact ⟨a, mem_transitions_row.1 hmem⟩
  · rintro ⟨a, ha⟩
    exact ⟨(a, k), mem_transitions_row.2 ha, rfl⟩

namespace Exploration

def discovered (e : Exploration) : List String := e.processed ++ e.queue

variable {N : Nfa} {delimiter : String} {e e' : Exploration} {n : Nat}

theorem discovered_of_queue_eq_nil (h : e.queue = []) : e.discovered = e.processed := by
  rw [discovered, h, List.append_nil]

/-- No key is discovered twice, the waiting keys are known as such, and the processed keys have
their rows. -/
structure Orderly (N : Nfa) (delimiter : String) (e : Exploration) : Prop where
  nodup : e.discovered.Nodup
  queued : ∀ k, k ∈ e.queued ↔ k ∈ e.queue
  rows : e.rows = e.processed.map (N.row delimiter)

theorem orderly_start (N : Nfa) (delimiter key : String) : Orderly N delimiter (start key) :=
  ⟨by simp [discovered, start], fun _ => Iff.rfl, rfl⟩

theorem Orderly.discovered_enqueue (h : Orderly N delimiter e) (k : String) :
    (e.enqueue k).discovered = appendNew e.discovered k := by
  have hknown : k ∈ e.processed ∨ k ∈ e.queued ↔ k ∈ e.discovered := by
    rw [h.queued, discovered, List.mem_append]
  rw [enqueue, appendNew]
  by_cases hk : k ∈ e.discovered
  · rw [if_pos hk, if_pos (hknown.2 hk)]
  · rw [if_neg hk, if_neg fun hk' => hk (hknown.1 hk')]
    exact (List.append_assoc ..).symm

theorem Orderly.enqueue (h : Orderly N delimiter e) (k : String) :
    Orderly N delimiter (e.enqueue k) where
  nodup := by
    rw [h.discovered_enqueue]
    exact nodup_appendNew h.nodup k
  queued l := by
    rw [Exploration.enqueue]
    split
    · exact h.queued l
    · simp [h.queued, or_comm]
  rows := by
    rw [rows_enqueue, processed_enqueue]
    exact h.rows

theorem Orderly.enqueueAll (h : Orderly N delimiter e) (ks : List String) :
    Orderly N delimiter (e.enqueueAll ks) := by
  induction ks generalizing e with
  | nil => exact h
  | cons k ks ih => exact ih (h.enqueue k)

theorem Orderly.discovered_enqueueAll (h : Orderly N delimiter e) (ks : List String) :
    (e.enqueueAll ks).discovered = ks.foldl appendNew e.discovered := by
  induction ks generalizing e with
  | nil => rfl
  | cons k ks ih =>
    rw [List.foldl_cons, ← h.discovered_enqueue]
    exact ih (h.enqueue k)

def process (N : Nfa) (delimiter key : String) (rest : List String) (e : Exploration) : Exploration :=
  ⟨rest, e.queued.filter (· ≠ key), e.processed ++ [key], e.rows ++ [N.row delimiter key]⟩

theorem Orderly.process {key : String} {rest : List String} (h : Orderly N delimiter e)
    (hq : e.queue = key :: rest) : Orderly N delimiter (e.process N delimiter key rest) where
  nodup := by
    have hnodup := h.nodup
    rw [discovered, hq] at hnodup
    rwa [discovered, Exploration.process, List.append_assoc]
  queued k := by
    have hnodup : (key :: rest).Nodup := by
      rw [← hq]
      exact (List.nodup_append.1 h.nodup).2.1
    have hkey := (List.nodup_cons.1 hnodup).1
    have hk := h.queued k
    rw [hq, List.mem_cons] at hk
    simp only [Exploration.process, List.mem_filter, hk, ne_eq, decide_not, Bool.not_eq_eq_eq_not,
      Bool.not_true, decide_eq_false_iff_not]
    constructor
    · rintro ⟨rfl | hr, hne⟩
      · exact absurd rfl hne
      · exact hr
    · intro hr
      exact ⟨.inr hr, fun heq => hkey (heq ▸ hr)⟩
  rows := by
    change e.rows ++ [N.row delimiter key] = (e.processed ++ [key]).map (N.row delimiter)
    rw [h.rows, List.map_append, List.map_singleton]

theorem Orderly.not_mem_processed {k : String} (h : Orderly N delimiter e) (hk : k ∈ e.queue) :
    k ∉ e.processed := fun hp =>
  (List.nodup_append.1 h.nodup).2.2 k hp k hk rfl

theorem Orderly.of_advance (h : Orderly N delimiter e) (he : e.advance N delimiter = some e') :
    ∃ key rest, e.queue = key :: rest ∧ Orderly N delimiter e' ∧
      e'.processed = e.processed ++ [key] ∧
      e'.discovered = (N.targets delimiter key).foldl appendNew e.discovered := by
  cases hq : e.queue with
  | nil =>
    rw [advance, hq] at he
    exact absurd he (by simp)
  | cons key rest =>
    -- the test for processed keys never succeeds
    have hnew : key ∉ e.processed := h.not_mem_processed (hq ▸ List.mem_cons_self)
    have hround : e' = (e.process N delimiter key rest).enqueueAll (N.targets delimiter key) := by
      rw [advance, hq] at he
      simp only [if_neg hnew, Option.some.injEq] at he
      exact he.symm
    have hproc := h.process hq
    subst hround
    refine ⟨key, rest, rfl, hproc.enqueueAll _, processed_enqueueAll _ _, ?_⟩
    rw [hproc.discovered_enqueueAll, discovered, discovered, hq, Exploration.process, List.append_assoc]
    rfl

theorem advance_eq_none_iff : e.advance N delimiter = none ↔ e.queue = [] := by
  rw [advance]
  split
  · next hq => simp [hq]
  · next hq => simp [hq]

inductive Rounds (N : Nfa) (delimiter : String) : Nat → Exploration → Exploration → Prop
  | zero (e : Exploration) : Rounds N delimiter 0 e e
  | succ {n : Nat} {e e₁ e' : Exploration} :
    e.advance N delimiter = some e₁ → Rounds N delimiter n e₁ e' → Rounds N delimiter (n + 1) e e'

theorem Rounds.keep {P : Exploration → Prop} (h : Rounds N delimiter n e e')
    (hround : ∀ e e', P e → e.advance N delimiter = some e' → P e') (he : P e) : P e' := by
  induction h with
  | zero e => exact he
  | succ hadv _ ih => exact ih (hround _ _ he hadv)

theorem Rounds.length_processed (h : Rounds N delimiter n e e') (he : Orderly N delimiter e) :
    e'.processed.length = e.processed.length + n := by
  induction h with
  | zero e => rfl
  | succ hadv _ ih =>
    obtain ⟨key, _, _, ho, hp, _⟩ := he.of_advance hadv
    rw [ih ho, hp, List.length_append, List.length_singleton]
    omega

theorem Rounds.length_processed_of_start {key : String} (h : Rounds N delimiter n (start key) e) :
    e.processed.length = n := by
  have hlen := h.length_processed (orderly_start N delimiter key)
  change e.processed.length = 0 + n at hlen
  rw [hlen, Nat.zero_add]

theorem finish_of_advance_eq_none (h : e.advance N delimiter = none) :
    e.finish N delimiter = e := by
  unfold finish
  split
  · rfl
  · next hadv => exact absurd (h.symm.trans hadv) (by simp)

theorem finish_of_advance_eq_some (h : e.advance N delimiter = some e') :
    e.finish N delimiter = e'.finish N delimiter := by
  rw [finish]
  split
  · next hadv => exact absurd (h.symm.trans hadv) (by simp)
  · next hadv => rw [Option.some.inj (h.symm.trans hadv)]

theorem rounds_finish (N : Nfa) (delimiter : String) (e : Exploration) :
    (∃ n, Rounds N delimiter n e (e.finish N delimiter)) ∧ (e.finish N delimiter).queue = [] := by
  induction e using finish.induct N delimiter with
  | case1 e hadv =>
    rw [finish_of_advance_eq_none hadv]
    exact ⟨⟨0, .zero e⟩, advance_eq_none_iff.1 hadv⟩
  | case2 e e₁ hadv ih =>
    rw [finish_of_advance_eq_some hadv]
    obtain ⟨⟨n, hn⟩, hq⟩ := ih
    exact ⟨⟨n + 1, .succ hadv hn⟩, hq⟩

end Exploration
end Determinizer
