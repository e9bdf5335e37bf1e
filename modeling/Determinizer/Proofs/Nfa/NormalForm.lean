import Determinizer.Proofs.Nfa.Reduced

/-! Normal forms of lists of transitions. A list is normal if its departures increase and each of
them leads to the increasing list of its destinations, of which there is at least one. Every list
has the triples of exactly one normal list, and that is the listing of the map made of it. -/

namespace Determinizer

namespace TransitionMap

variable {l : List (Departure × Members)}

theorem get?_foldl_put (h : (l.map Prod.fst).Nodup) (m : TransitionMap) (d : Departure) :
    (l.foldl (fun m e => m.put e.1 e.2) m).get? d = (l.lookup d).or (m.get? d) := by
  induction l generalizing m with
  | nil => rfl
  | cons e l ih =>
    rw [List.map_cons, List.nodup_cons] at h
    rw [List.foldl_cons, ih h.2, get?_put, lookup_cons_ite]
    by_cases hd : d = e.1
    · -- the entry is not written over by a later one
      have hnone : l.lookup d = none := by
        rw [Option.eq_none_iff_forall_ne_some]
        intro targets hlookup
        have hmem := (lookup_eq_some_iff_mem h.2).1 hlookup
        exact h.1 (List.mem_map.2 ⟨_, hmem, hd⟩)
      rw [if_pos hd, if_pos hd, hnone]
      rfl
    · rw [if_neg hd, if_neg hd]

theorem perm_entries_ofEntries (h : (l.map Prod.fst).Nodup) : (ofEntries l).entries.Perm l := by
  have hnodup : (ofEntries l).entries.Nodup := (ofEntries l).increasing.nodup.of_map _
  apply (List.perm_ext_iff_of_nodup hnodup (h.of_map _)).2
  rintro ⟨d, targets⟩
  rw [mem_entries_iff, ofEntries, get?_foldl_put h, ← lookup_eq_some_iff_mem h, get?_empty,
    Option.or_none]

theorem ofEntries_entries (m : TransitionMap) : ofEntries m.entries = m := by
  refine ext_get? fun d => ?_
  rw [ofEntries, get?_foldl_put m.increasing.nodup, get?_empty, Option.or_none, get?]

end TransitionMap

namespace Transition

open TransitionMap (ofEntries ofTransitions)

variable {ts us : List Transition} {t u : Transition} {q a p : String}

def departure (t : Transition) : Departure := ⟨t.state, t.symbol⟩

structure Normal (ts : List Transition) : Prop where
  departures : Increasing (ts.map departure)
  nonempty : ∀ t ∈ ts, t.nextStates ≠ []
  nextStates : ∀ t ∈ ts, Increasing t.nextStates

def normalForm (ts : List Transition) : List Transition := (ofTransitions ts).toTransitions

theorem departure_eq_iff : t.departure = u.departure ↔ t.state = u.state ∧ t.symbol = u.symbol := by
  rw [departure, departure, Departure.mk.injEq]

theorem Normal.eq_of_departure_eq (h : Normal ts) (ht : t ∈ ts) (hu : u ∈ ts)
    (heq : t.departure = u.departure) : t = u :=
  List.inj_on_of_nodup_map h.departures.nodup ht hu heq

theorem Normal.mem_nextStates_iff (h : Normal ts) (ht : t ∈ ts) :
    p ∈ t.nextStates ↔ Denotes ts t.state t.symbol p := by
  constructor
  · exact fun hp => ⟨t, ht, rfl, rfl, hp⟩
  · rintro ⟨u, hu, hstate, hsymbol, hp⟩
    rwa [h.eq_of_departure_eq hu ht (departure_eq_iff.2 ⟨hstate, hsymbol⟩)] at hp

theorem Normal.mem_iff (h : Normal ts) : t ∈ ts ↔ t.nextStates ≠ [] ∧ Increasing t.nextStates ∧
    ∀ p, p ∈ t.nextStates ↔ Denotes ts t.state t.symbol p := by
  constructor
  · exact fun ht => ⟨h.nonempty t ht, h.nextStates t ht, fun _ => h.mem_nextStates_iff ht⟩
  · rintro ⟨hne, hincreasing, hmem⟩
    obtain ⟨p, hp⟩ := List.exists_mem_of_ne_nil _ hne
    obtain ⟨u, hu, hstate, hsymbol, -⟩ := (hmem p).1 hp
    have hnext : u.nextStates = t.nextStates := by
      refine (h.nextStates u hu).ext hincreasing fun p => ?_
      rw [hmem p, h.mem_nextStates_iff hu, hstate, hsymbol]
    cases t
    cases u
    cases hstate
    cases hsymbol
    cases hnext
    exact hu

theorem Normal.ext (h : Normal ts) (h' : Normal us)
    (hdenotes : ∀ q a p, Denotes ts q a p ↔ Denotes us q a p) : ts = us := by
  refine eq_of_increasing_map h.departures h'.departures fun t => ?_
  rw [h.mem_iff, h'.mem_iff]
  simp only [hdenotes]

theorem normal_toTransitions (m : TransitionMap) : Normal m.toTransitions where
  departures := by
    rw [TransitionMap.toTransitions, List.map_map]
    exact m.reduce.increasing
  nonempty t ht hnil := by
    obtain ⟨hne, hnext⟩ := TransitionMap.mem_toTransitions.1 ht
    refine hne (Members.isEmpty_iff.1 ?_)
    rw [Members.isEmpty, ← hnext, hnil, List.isEmpty_nil]
  nextStates t ht := by
    rw [(TransitionMap.mem_toTransitions.1 ht).2]
    exact Members.increasing _

theorem denotes_normalForm : Denotes (normalForm ts) q a p ↔ Denotes ts q a p :=
  TransitionMap.denotes_toTransitions.trans TransitionMap.mem_destinations_ofTransitions

theorem Normal.normalForm_eq (h : Normal ts) : normalForm ts = ts :=
  (normal_toTransitions _).ext h fun _ _ _ => denotes_normalForm

theorem normalForm_eq_iff :
    normalForm ts = normalForm us ↔ ∀ q a p, Denotes ts q a p ↔ Denotes us q a p := by
  constructor
  · intro heq q a p
    rw [← denotes_normalForm, heq, denotes_normalForm]
  · intro hdenotes
    refine (normal_toTransitions _).ext (normal_toTransitions _) fun q a p => ?_
    exact denotes_normalForm.trans ((hdenotes q a p).trans denotes_normalForm.symm)

/-- From a map to its listing and back only the empty entries are lost, in whatever order the map
was written. From a list to its map and back, the list comes to a normal form with the same triples,
and what is in it stays as it is; lists have the same normal form just if they have the same
triples. -/
theorem inverse_up_to_normalForm :
    (∀ m : TransitionMap,
      (ofTransitions m.toTransitions).entries = m.entries.filter (·.2 ≠ ∅)) ∧
    (∀ l : List (Departure × Members), (l.map Prod.fst).Nodup → (ofEntries l).entries.Perm l) ∧
    (∀ ts, Normal (normalForm ts) ∧
      (∀ q a p, Denotes (normalForm ts) q a p ↔ Denotes ts q a p) ∧
      normalForm (normalForm ts) = normalForm ts) ∧
    ∀ ts us, normalForm ts = normalForm us ↔ ∀ q a p, Denotes ts q a p ↔ Denotes us q a p := by
  refine ⟨fun m => ?_, fun l hl => TransitionMap.perm_entries_ofEntries hl, fun ts => ?_,
    fun ts us => normalForm_eq_iff⟩
  · rw [TransitionMap.ofTransitions_toTransitions_eq_reduce]
    refine List.filter_congr fun e _ => ?_
    rw [Bool.eq_iff_iff, Bool.not_eq_true', ← Bool.not_eq_true, Members.isEmpty_iff,
      decide_eq_true_iff]
  · have hnormal : Normal (normalForm ts) := normal_toTransitions _
    exact ⟨hnormal, fun _ _ _ => denotes_normalForm, hnormal.normalForm_eq⟩

example : normalForm [⟨"B", "0", []⟩, ⟨"A", "1", ["C", "A", "C"]⟩, ⟨"B", "0", ["A"]⟩,
    ⟨"A", "1", []⟩, ⟨"C", "0", []⟩] = [⟨"A", "1", ["A", "C"]⟩, ⟨"B", "0", ["A"]⟩] := by decide

end Transition
end Determinizer
