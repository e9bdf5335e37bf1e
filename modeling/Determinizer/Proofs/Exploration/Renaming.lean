import Mathlib
import Determinizer.Proofs.Exploration.Reachable

/-! Two explorations in lockstep. Let the rows of one automaton be the rows of another with all keys
renamed, and let no two reachable keys get the same name. Then each round of the one exploration is
matched by a round of the other, which discovers the renamed keys in the same order, and the tables
differ in the names alone. -/

namespace Determinizer

def Row.map {α β : Type} (f : α → β) (r : Row α) : Row β :=
  ⟨f r.name, r.accepting, r.transitions.map fun e => (e.1, f e.2)⟩

theorem Row.map_id {α : Type} (r : Row α) : r.map id = r := by
  obtain ⟨name, accepting, transitions⟩ := r
  simp [Row.map]

theorem map_foldl_appendNew {f : String → String} {l ks : List String}
    (hf : Set.InjOn f {k | k ∈ ks.foldl appendNew l}) :
    (ks.foldl appendNew l).map f = (ks.map f).foldl appendNew (l.map f) := by
  induction ks generalizing l with
  | nil => rfl
  | cons k ks ih =>
    have hgrow := (prefix_foldl_appendNew (appendNew l k) ks).subset
    have hk : k ∈ appendNew l k := by
      rw [appendNew]
      split
      · assumption
      · exact List.mem_append_right l List.mem_cons_self
    have hl : l ⊆ appendNew l k := (prefix_foldl_appendNew l [k]).subset
    have hmem : f k ∈ l.map f ↔ k ∈ l := by
      rw [List.mem_map]
      constructor
      · rintro ⟨a, ha, heq⟩
        exact hf (hgrow (hl ha)) (hgrow hk) heq ▸ ha
      · exact fun h => ⟨k, h, rfl⟩
    have hnew : (appendNew l k).map f = appendNew (l.map f) (f k) := by
      rw [appendNew, appendNew, if_congr hmem rfl rfl]
      split
      · rfl
      · rw [List.map_append, List.map_singleton]
    rw [List.map_cons, List.foldl_cons, List.foldl_cons, ← hnew]
    exact ih hf

/-- The reachable rows of one automaton are those of another under the names that `f` gives to the
keys, and different keys have different names. -/
structure Nfa.Renames (f : String → String) (N : Nfa) (delimiter : String) (N' : Nfa)
    (delimiter' : String) : Prop where
  start : Key.canonical delimiter' N'.initial = f (Key.canonical delimiter N.initial)
  injOn : Set.InjOn f {k | N.Reachable delimiter k}
  row : ∀ k, N.Reachable delimiter k → N'.row delimiter' (f k) = (N.row delimiter k).map f

variable {f : String → String} {N N' : Nfa} {delimiter delimiter' : String} {n : Nat}

theorem Nfa.Renames.targets (h : N.Renames f delimiter N' delimiter') {k : String}
    (hk : N.Reachable delimiter k) :
    N'.targets delimiter' (f k) = (N.targets delimiter k).map f := by
  rw [Nfa.targets, Nfa.targets, h.row k hk, Row.map, List.map_map, List.map_map]
  rfl

namespace Exploration

variable {e e' e₁ : Exploration}

structure Lockstep (f : String → String) (N : Nfa) (delimiter : String) (N' : Nfa)
    (delimiter' : String) (e e' : Exploration) : Prop where
  explored : Explored N delimiter e
  orderly : Orderly N' delimiter' e'
  processed : e'.processed = e.processed.map f
  discovered : e'.discovered = e.discovered.map f

theorem lockstep_start (h : N.Renames f delimiter N' delimiter') :
    Lockstep f N delimiter N' delimiter' (start (Key.canonical delimiter N.initial))
      (start (Key.canonical delimiter' N'.initial)) where
  explored := explored_start N delimiter
  orderly := orderly_start N' delimiter' _
  processed := rfl
  discovered := congrArg (fun k => [k]) h.start

theorem Lockstep.queue (h : Lockstep f N delimiter N' delimiter' e e') :
    e'.queue = e.queue.map f := by
  have hd := h.discovered
  rw [Exploration.discovered, Exploration.discovered, List.map_append, h.processed] at hd
  exact List.append_cancel_left hd

theorem Lockstep.of_advance (hf : N.Renames f delimiter N' delimiter')
    (h : Lockstep f N delimiter N' delimiter' e e') (hadv : e.advance N delimiter = some e₁) :
    ∃ e₁', e'.advance N' delimiter' = some e₁' ∧
      Lockstep f N delimiter N' delimiter' e₁ e₁' := by
  have hex := h.explored.of_advance hadv
  obtain ⟨key, rest, hq, -, hp, hd⟩ := h.explored.orderly.of_advance hadv
  have hq' : e'.queue = f key :: rest.map f := by rw [h.queue, hq, List.map_cons]
  have hsome : e'.advance N' delimiter' ≠ none := by
    rw [ne_eq, advance_eq_none_iff, hq']
    exact List.cons_ne_nil _ _
  obtain ⟨e₁', hadv'⟩ := Option.ne_none_iff_exists'.1 hsome
  obtain ⟨key', rest', hq'', ho', hp', hd'⟩ := h.orderly.of_advance hadv'
  obtain ⟨rfl, -⟩ := List.cons.inj (hq'.symm.trans hq'')
  have hkey : N.Reachable delimiter key := by
    refine h.explored.reachable key ?_
    rw [Exploration.discovered, hq]
    exact List.mem_append_right _ List.mem_cons_self
  refine ⟨e₁', hadv', hex, ho', ?_, ?_⟩
  · rw [hp', hp, h.processed, List.map_append, List.map_singleton]
  · have hinj : Set.InjOn f {k | k ∈ e₁.discovered} := hf.injOn.mono hex.reachable
    rw [hd] at hinj
    rw [hd', hd, map_foldl_appendNew hinj, hf.targets hkey, h.discovered]

theorem Lockstep.of_rounds (hf : N.Renames f delimiter N' delimiter')
    (hrounds : Rounds N delimiter n e e₁) (h : Lockstep f N delimiter N' delimiter' e e') :
    ∃ e₁', Rounds N' delimiter' n e' e₁' ∧ Lockstep f N delimiter N' delimiter' e₁ e₁' := by
  induction hrounds generalizing e' with
  | zero e => exact ⟨e', .zero e', h⟩
  | succ hadv _ ih =>
    obtain ⟨e₂', hadv', h₂⟩ := h.of_advance hf hadv
    obtain ⟨e₁', hrounds', h₁⟩ := ih h₂
    exact ⟨e₁', .succ hadv' hrounds', h₁⟩

theorem Rounds.finish_eq (h : Rounds N delimiter n e e') (hq : e'.queue = []) :
    e.finish N delimiter = e' := by
  induction h with
  | zero e => exact finish_of_advance_eq_none (advance_eq_none_iff.2 hq)
  | succ hadv _ ih => exact (finish_of_advance_eq_some hadv).trans (ih hq)

end Exploration

namespace Nfa

theorem Renames.determinize (h : N.Renames f delimiter N' delimiter') :
    N'.determinize delimiter' = (N.determinize delimiter).map (Row.map f) := by
  obtain ⟨n, e, hrounds, hq, hrows, hex⟩ := exists_exploration N delimiter
  obtain ⟨e', hrounds', hlock⟩ := Exploration.Lockstep.of_rounds h hrounds
    (Exploration.lockstep_start h)
  have hq' : e'.queue = [] := by rw [hlock.queue, hq, List.map_nil]
  have hrows' : N'.determinize delimiter' = e'.rows :=
    congrArg Exploration.rows (hrounds'.finish_eq hq')
  have hreach : ∀ k ∈ e.processed, N.Reachable delimiter k := fun k hk =>
    hex.reachable k (List.mem_append_left _ hk)
  rw [hrows', hlock.orderly.rows, hlock.processed, hrows, hex.orderly.rows, List.map_map,
    List.map_map]
  exact List.map_congr_left fun k hk => h.row k (hreach k hk)

theorem determinize_congr
    (hstart : Key.canonical delimiter' N'.initial = Key.canonical delimiter N.initial)
    (hrow : ∀ k, N.Reachable delimiter k → N'.row delimiter' k = N.row delimiter k) :
    N'.determinize delimiter' = N.determinize delimiter := by
  have h : N.Renames id delimiter N' delimiter' :=
    ⟨hstart, Set.injOn_id _, fun k hk => (hrow k hk).trans (Row.map_id _).symm⟩
  rw [h.determinize]
  exact List.map_id'' Row.map_id _

end Nfa
end Determinizer
