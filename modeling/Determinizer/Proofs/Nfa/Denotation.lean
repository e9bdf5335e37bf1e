import Mathlib
import Determinizer.Nfa.Basic

/-! What a list of transitions denotes. The map made of it leads from a state on a symbol to exactly
the denoted destinations, and from a set of states over a word to the states at the end of runs. -/

namespace Determinizer

section Lookup
variable {α β : Type} [DecidableEq α]

theorem lookup_eq_some_iff_mem {l : List (α × β)} (h : (l.map Prod.fst).Nodup) {a : α} {v : β} :
    l.lookup a = some v ↔ (a, v) ∈ l := by
  induction l with
  | nil => simp
  | cons e l ih =>
    obtain ⟨b, w⟩ := e
    rw [List.map_cons, List.nodup_cons] at h
    rw [lookup_cons_ite, List.mem_cons, Prod.mk.injEq]
    by_cases hab : a = b
    · have hnot : (a, v) ∉ l := fun hmem => h.1 (hab ▸ List.mem_map.2 ⟨_, hmem, rfl⟩)
      simp [hab, hab ▸ hnot, eq_comm]
    · simp [hab, ih h.2]

theorem lookup_filter {l : List (α × β)} (h : (l.map Prod.fst).Nodup) (p : α × β → Bool) (a : α) :
    (l.filter p).lookup a = (l.lookup a).filter fun v => p (a, v) := by
  induction l with
  | nil => rfl
  | cons e l ih =>
    obtain ⟨b, v⟩ := e
    rw [List.map_cons, List.nodup_cons] at h
    have htail := ih h.2
    by_cases hab : a = b
    · subst hab
      -- the key stands nowhere else, so what comes after its entry does not matter
      have hnone : l.lookup a = none := by
        refine List.lookup_eq_none_iff.2 fun e he => bne_iff_ne.2 fun heq => h.1 ?_
        exact List.mem_map.2 ⟨e, he, heq.symm⟩
      rw [hnone] at htail
      by_cases hp : p (a, v)
      · simp [hp, Option.filter_some]
      · simp [hp, htail, Option.filter_some]
    · rw [lookup_cons_ite, if_neg hab, ← htail]
      by_cases hp : p (b, v)
      · rw [List.filter_cons_of_pos hp, lookup_cons_ite, if_neg hab]
      · rw [List.filter_cons_of_neg hp]

end Lookup

namespace Transition

theorem denotes_cons {t : Transition} {ts : List Transition} {q a p : String} :
    Denotes (t :: ts) q a p ↔
      t.state = q ∧ t.symbol = a ∧ p ∈ t.nextStates ∨ Denotes ts q a p := by
  rw [← List.singleton_append, denotes_append]
  simp [Denotes]

end Transition

namespace TransitionMap

theorem get?_filter (m : TransitionMap) (p : Departure × Members → Bool) (d : Departure) :
    (m.filter p).get? d = (m.get? d).filter fun targets => p (d, targets) :=
  lookup_filter m.increasing.nodup p d

theorem get?_erase (m : TransitionMap) (d e : Departure) :
    (m.erase d).get? e = if e = d then none else m.get? e := by
  rw [erase, get?_filter]
  by_cases h : e = d
  · simp [h]
  · cases m.get? e <;> simp [h]

theorem destinations_filter {m : TransitionMap} {p : Departure × Members → Bool} {q a : String}
    (h : ∀ targets, m.get? ⟨q, a⟩ = some targets → targets ≠ ∅ → p (⟨q, a⟩, targets) = true) :
    (m.filter p).destinations q a = m.destinations q a := by
  unfold destinations
  rw [get?_filter]
  cases hget : m.get? ⟨q, a⟩ with
  | none => rfl
  | some targets =>
    by_cases hempty : targets = ∅
    · subst hempty
      rw [Option.filter_some]
      split <;> rfl
    · rw [Option.filter_some, if_pos (h targets hget hempty)]

theorem destinations_reduce (m : TransitionMap) (q a : String) :
    m.reduce.destinations q a = m.destinations q a := by
  refine destinations_filter fun targets _ hne => ?_
  rw [Bool.not_eq_true']
  exact Bool.eq_false_iff.2 fun hempty => hne (Members.isEmpty_iff.1 hempty)

theorem mem_destinations_foldl_add {m : TransitionMap} {ts : List Transition} {q a p : String} :
    p ∈ (ts.foldl add m).destinations q a ↔
      Transition.Denotes ts q a p ∨ p ∈ m.destinations q a := by
  induction ts generalizing m with
  | nil => simp [Transition.denotes_nil]
  | cons t ts ih =>
    rw [List.foldl_cons, ih, mem_destinations_add, Transition.denotes_cons, or_left_comm, or_assoc]

theorem mem_destinations_ofTransitions {ts : List Transition} {q a p : String} :
    p ∈ (ofTransitions ts).destinations q a ↔ Transition.Denotes ts q a p := by
  rw [ofTransitions, destinations_reduce, mem_destinations_foldl_add]
  have hempty : p ∉ (∅ : TransitionMap).destinations q a := Members.not_mem_empty p
  simp [hempty]

def nextAll (m : TransitionMap) (states : Members) : List String → Members
  | [] => states
  | a :: w => nextAll m (m.next states.toList a) w

theorem nextAll_empty (m : TransitionMap) (w : List String) : m.nextAll ∅ w = ∅ := by
  induction w with
  | nil => rfl
  | cons a w ih => exact ih

theorem mem_nextAll {ts : List Transition} {states : Members} {w : List String} {p : String} :
    p ∈ (ofTransitions ts).nextAll states w ↔ ∃ q ∈ states, Transition.Run ts q w p := by
  induction w generalizing states with
  | nil => simp [nextAll, Transition.run_nil_iff]
  | cons a w ih =>
    rw [nextAll, ih]
    simp only [mem_next, mem_destinations_ofTransitions, Transition.run_cons_iff]
    constructor
    · rintro ⟨r, ⟨q, hq, hr⟩, hrun⟩
      exact ⟨q, hq, r, hr, hrun⟩
    · rintro ⟨q, hq, r, hr, hrun⟩
      exact ⟨r, ⟨q, hq, hr⟩, hrun⟩

end TransitionMap
end Determinizer
