import Determinizer.Proofs.Nfa.Listing

/-! Maps in which every departure leads somewhere. Writing such a map as a list of transitions loses
nothing: the list has all its entries, and the map made of the list is the same map. -/

namespace Determinizer

theorem eq_of_increasing_map {α β : Type} [LT α] [StrictLinear α] {f : β → α} {l k : List β}
    (hl : Increasing (l.map f)) (hk : Increasing (k.map f)) (hmem : ∀ e, e ∈ l ↔ e ∈ k) :
    l = k := by
  have hperm : l.Perm k :=
    (List.perm_ext_iff_of_nodup (hl.nodup.of_map _) (hk.nodup.of_map _)).2 hmem
  have hasymm : ∀ e e' : β, e ∈ l → e' ∈ k → f e < f e' → f e' < f e → e = e' :=
    fun _ _ _ _ hlt hgt => absurd (StrictLinear.trans hlt hgt) (StrictLinear.irrefl _)
  exact hperm.eq_of_pairwise hasymm (List.pairwise_map.1 hl) (List.pairwise_map.1 hk)

namespace TransitionMap

variable {m n : TransitionMap} {d : Departure} {targets : Members}

theorem ext_get? (h : ∀ d, m.get? d = n.get? d) : m = n := by
  obtain ⟨l, hl⟩ := m
  obtain ⟨k, hk⟩ := n
  have hmem : ∀ e, e ∈ l ↔ e ∈ k := by
    rintro ⟨d, targets⟩
    have hget : l.lookup d = k.lookup d := h d
    have hl' : (d, targets) ∈ l ↔ l.lookup d = some targets := mem_entries_iff (m := ⟨l, hl⟩)
    have hk' : (d, targets) ∈ k ↔ k.lookup d = some targets := mem_entries_iff (m := ⟨k, hk⟩)
    rw [hl', hget, hk']
  obtain rfl : l = k := eq_of_increasing_map hl hk hmem
  rfl

def Reduced (m : TransitionMap) : Prop := ∀ d targets, m.get? d = some targets → targets ≠ ∅

theorem reduced_empty : (∅ : TransitionMap).Reduced := by
  intro d targets hget
  cases hget

theorem Reduced.put (h : m.Reduced) (hne : targets ≠ ∅) : (m.put d targets).Reduced := by
  intro e targets' hget
  rw [get?_put] at hget
  split at hget
  · cases hget
    exact hne
  · exact h e targets' hget

theorem Reduced.filter (h : m.Reduced) (p : Departure × Members → Bool) : (m.filter p).Reduced := by
  intro d targets hget
  rw [get?_filter, Option.filter_eq_some_iff] at hget
  exact h d targets hget.1

theorem reduced_reduce (m : TransitionMap) : m.reduce.Reduced := by
  rintro d _ hget rfl
  rw [reduce, get?_filter, Option.filter_eq_some_iff] at hget
  have hkept : (!(∅ : Members).isEmpty) = true := hget.2
  cases hkept

theorem reduced_ofTransitions (ts : List Transition) : (ofTransitions ts).Reduced :=
  reduced_reduce _

theorem get?_eq_destinations (m : TransitionMap) (d : Departure) :
    m.get? d = some (m.destinations d.state d.symbol) ∨
      m.get? d = none ∧ m.destinations d.state d.symbol = ∅ := by
  unfold destinations
  cases m.get? d with
  | none => exact .inr ⟨rfl, rfl⟩
  | some targets => exact .inl rfl

theorem Reduced.ext (hm : m.Reduced) (hn : n.Reduced)
    (h : ∀ q a, m.destinations q a = n.destinations q a) : m = n := by
  refine ext_get? fun d => ?_
  have hd := h d.state d.symbol
  rcases m.get?_eq_destinations d with hsome | ⟨hnone, hempty⟩
  · have hne := hm d _ hsome
    rcases n.get?_eq_destinations d with hsome' | ⟨-, hempty'⟩
    · rw [hsome, hsome', hd]
    · exact absurd (hd.trans hempty') hne
  · rcases n.get?_eq_destinations d with hsome' | ⟨hnone', -⟩
    · exact absurd (hd.symm.trans hempty) (hn d _ hsome')
    · rw [hnone, hnone']

theorem ofTransitions_toTransitions_eq_reduce (m : TransitionMap) :
    ofTransitions m.toTransitions = m.reduce := by
  refine (reduced_ofTransitions _).ext (reduced_reduce m) fun q a => ?_
  rw [destinations_reduce]
  ext p
  rw [mem_destinations_ofTransitions, denotes_toTransitions]

theorem Reduced.reduce_eq (h : m.Reduced) : m.reduce = m :=
  (reduced_reduce m).ext h fun q a => destinations_reduce m q a

theorem ofTransitions_toTransitions (h : m.Reduced) : ofTransitions m.toTransitions = m := by
  rw [ofTransitions_toTransitions_eq_reduce, h.reduce_eq]

end TransitionMap
end Determinizer
