import Determinizer.Proofs.Key.Separation

/-! When canonical keys are a normal form. Under an unambiguous delimiter a canonical key is read
back as the labels that it was made of, so nothing changes when it is brought into canonical form
again, alone or together with other keys. A delimiter with a period shorter than itself spoils this:
a label that is the shortest period, with the delimiter behind it, starts with the delimiter, and
what starts with the delimiter is no canonical key. -/

namespace Determinizer.Text

variable {d x : List Char} {c : Char}

/-- A beginning of the delimiter behind which it could begin again: what is left of it is a
beginning as well. -/
def Period (d x : List Char) : Prop := x ≠ [] ∧ ∃ b, b ≠ [] ∧ x ++ b = d ∧ b <+: d

theorem Period.prefix_append (h : Period d x) : d <+: x ++ d := by
  obtain ⟨-, b, -, hxb, hb⟩ := h
  have hpre : x ++ b <+: x ++ d := (List.prefix_append_right_inj x).2 hb
  rwa [hxb] at hpre

theorem Period.length_lt (h : Period d x) : x.length < d.length := by
  obtain ⟨-, b, hb, rfl, -⟩ := h
  have hpos := List.length_pos_iff.2 hb
  rw [List.length_append]
  omega

theorem exists_shortest_period (h : Period d x) :
    ∃ x, Period d x ∧ ∀ y, Period d y → x.length ≤ y.length := by
  classical
  have hex : ∃ n, ∃ y, Period d y ∧ y.length = n := ⟨_, x, h, rfl⟩
  obtain ⟨y, hy, hlen⟩ := Nat.find_spec hex
  exact ⟨y, hy, fun z hz => hlen ▸ Nat.find_min' hex ⟨z, hz, rfl⟩⟩

theorem exists_not_mem_of_length_lt {l : List Char} (h : l.length < 4) : ∃ c, c ∉ l := by
  refine Classical.byContradiction fun hall => ?_
  have hsub : ['a', 'b', 'c', 'd'] ⊆ l := fun c _ =>
    Classical.byContradiction fun hc => hall ⟨c, hc⟩
  have hnodup : ['a', 'b', 'c', 'd'].Nodup := by decide
  have hle := (hnodup.subperm hsub).length_le
  exact absurd (hle.trans_lt h) (by decide)

theorem exists_concat_not_runsInto (h : Period d x)
    (hshort : ∀ y, Period d y → x.length ≤ y.length) :
    ∃ c, ¬ d <:+: x ++ [c] ∧ ¬ RunsInto d (x ++ [c]) := by
  obtain ⟨hx, b, hb, hxb, -⟩ := h
  obtain ⟨c, hc⟩ := exists_not_mem_of_length_lt
    (l := [b.getLast hb, x.getLast hx, b.head hb]) (by simp)
  simp only [List.mem_cons, List.not_mem_nil, or_false, not_or] at hc
  obtain ⟨hlast, hend, hnext⟩ := hc
  refine ⟨c, hxb ▸ not_infix_append_singleton hb hlast, ?_⟩
  rintro ⟨y, b', hy, hb', hyb, hsuf, hpre⟩
  have hle := hshort y ⟨hy, b', hb', hyb, hpre⟩
  obtain rfl | ⟨u, rfl, hu⟩ := List.suffix_concat_iff.1 hsuf
  · exact hy rfl
  have hlong := hu.length_le
  rw [List.length_append, List.length_singleton] at hle
  have hyd : u ++ [c] <+: d := ⟨b', hyb⟩
  have hxd : x <+: d := ⟨b, hxb⟩
  by_cases hlen : u.length = x.length
  · -- the character would be the one behind the period
    obtain rfl := hu.eq_of_length hlen
    rw [← hxb, List.append_assoc] at hyb
    have htail := List.append_cancel_left hyb
    subst htail
    exact hnext rfl
  · -- the character would be the last one of the period
    have hsame : x = u ++ [c] := by
      refine (List.prefix_of_prefix_length_le hxd hyd ?_).eq_of_length ?_
      · rwa [List.length_append, List.length_singleton]
      · rw [List.length_append, List.length_singleton]
        omega
    subst hsame
    exact hend (by simp)

end Determinizer.Text

namespace Determinizer.Key

variable {d key : String} {ks ls : List String}

theorem Unambiguous.members_ofKeys (h : Unambiguous d) (ks : List String) :
    members d (ofKeys d ks) = (memberSet d ks).toList :=
  h.members_ofMembers fun _ => atomic_of_mem_memberSet

theorem Unambiguous.mem_members_ofKeys (h : Unambiguous d) {a : String} :
    a ∈ members d (ofKeys d ks) ↔ ∃ k ∈ ks, a ∈ members d k := by
  rw [h.members_ofKeys, ← Members.mem_def, mem_memberSet]

theorem Unambiguous.ofKeys_cons_ofKeys (h : Unambiguous d) (ks ls : List String) :
    ofKeys d (ofKeys d ks :: ls) = ofKeys d (ks ++ ls) := by
  refine ofKeys_congr fun a => ?_
  simp only [List.mem_cons, List.mem_append, or_and_right, exists_or, exists_eq_left,
    h.mem_members_ofKeys]

theorem Unambiguous.canonical_ofKeys (h : Unambiguous d) (ks : List String) :
    canonical d (ofKeys d ks) = ofKeys d ks := by
  have hjoin := h.ofKeys_cons_ofKeys ks []
  rwa [List.append_nil] at hjoin

theorem members_append_left (hd : d ≠ "") (key : String) : members d (d ++ key) = members d key := by
  rw [members_eq_map hd, members_eq_map hd, String.toList_append,
    Text.splitAround_append_left (toList_ne_nil hd)]
  rfl

theorem length_canonical_le (hd : d ≠ "") (key : String) :
    (canonical d key).toList.length ≤ key.toList.length := by
  have hparts := Text.sum_length_splitAround (toList_ne_nil hd) key.toList
  generalize hps : Text.splitAround d.toList key.toList = ps at hparts
  have hmembers : (members d key).map String.toList = ps.filter (· ≠ []) := by
    rw [members_eq_map hd, hps, List.map_map]
    simp only [Function.comp_def, String.toList_ofList, List.map_id']
  have hsub : (memberSet d [key]).toList ⊆ members d key := fun a ha => by
    simpa using mem_memberSet.1 (Members.mem_def.2 ha)
  have hsubperm : ((memberSet d [key]).toList.map String.toList).Subperm (ps.filter (· ≠ [])) :=
    hmembers ▸ ((memberSet d [key]).increasing.nodup.subperm hsub).map fun _ _ => String.toList_inj.1
  have hcount := hsubperm.length_le.trans (List.length_filter_le _ ps)
  obtain ⟨l, hperm, hsublist⟩ := List.subperm_iff.1 hsubperm
  have hsum : (((memberSet d [key]).toList.map String.toList).map List.length).sum ≤
      ((ps.filter (· ≠ [])).map List.length).sum := by
    rw [← (hperm.map List.length).sum_eq]
    exact (hsublist.map List.length).sum_le_sum fun _ _ => Nat.zero_le _
  rw [canonical, ofKeys, ofMembers, String.toList_intercalate]
  cases hlabels : (memberSet d [key]).toList.map String.toList with
  | nil => exact Nat.zero_le _
  | cons p qs =>
    rw [hlabels] at hcount hsum
    rw [Text.length_intercalate]
    have hjoints : qs.length * d.toList.length ≤ (ps.length - 1) * d.toList.length := by
      refine Nat.mul_le_mul_right _ ?_
      rw [List.length_cons] at hcount
      omega
    omega

theorem canonical_ne_of_prefix (hd : d ≠ "") (h : d.toList <+: key.toList) :
    canonical d key ≠ key := by
  obtain ⟨t, ht⟩ := h
  have hkey : key = d ++ String.ofList t := by
    rw [← String.toList_inj, String.toList_append, String.toList_ofList, ht]
  have hsame : canonical d key = canonical d (String.ofList t) := by
    refine ofKeys_congr fun a => ?_
    simp only [hkey, List.mem_singleton, exists_eq_left, members_append_left hd]
  intro heq
  have hle := length_canonical_le hd (String.ofList t)
  have hpos := List.length_pos_iff.2 (toList_ne_nil hd)
  rw [← hsame, heq, ← ht, List.length_append, String.toList_ofList] at hle
  omega

theorem exists_period_of_not_unambiguous (h : ¬ Unambiguous d) : ∃ x, Text.Period d.toList x := by
  obtain ⟨_, _, -, -, -, hrun⟩ := exists_runsInto_of_not_unambiguous h
  obtain ⟨x, b, hx, hb, hxb, -, hbd⟩ := hrun
  exact ⟨x, hx, b, hb, hxb, hbd⟩

/-- Behind the longer label the delimiter is found, so a key may name that label and the period in
this order. In the canonical key the period comes first, and the delimiter is found too early. -/
theorem exists_canonical_ne (h : ¬ Unambiguous d) :
    ∃ k, canonical d (canonical d k) ≠ canonical d k := by
  obtain ⟨_, hperiod⟩ := exists_period_of_not_unambiguous h
  obtain ⟨x, hx, hshort⟩ := Text.exists_shortest_period hperiod
  obtain ⟨c, hfree, hrun⟩ := Text.exists_concat_not_runsInto hx hshort
  have hd : d ≠ "" := by
    rintro rfl
    exact absurd hx.length_lt (Nat.not_lt_zero _)
  have hfree' : ¬ d.toList <:+: x := fun hinf => hfree (hinf.trans List.infix_append_left)
  have hcut : Text.splitAround d.toList (x ++ [c] ++ (d.toList ++ x)) = [x ++ [c], x] := by
    rw [Text.splitAround_append_delimiter (toList_ne_nil hd) hfree hrun,
      Text.splitAround_of_not_occurs hfree']
  have hmembers : members d (String.ofList (x ++ [c] ++ (d.toList ++ x))) =
      [String.ofList (x ++ [c]), String.ofList x] := by
    rw [members_eq_map hd, String.toList_ofList, hcut]
    simp [hx.1]
  have hset : (memberSet d [String.ofList (x ++ [c] ++ (d.toList ++ x))]).toList =
      [String.ofList x, String.ofList (x ++ [c])] := by
    rw [← Members.toList_ofList_of_increasing (l := [String.ofList x, String.ofList (x ++ [c])])
      (by simpa [Increasing] using ofList_lt_concat x c)]
    congr 1
    ext a
    rw [mem_memberSet, Members.mem_ofList]
    simp only [List.mem_singleton, exists_eq_left, hmembers, List.mem_pair, or_comm]
  refine ⟨String.ofList (x ++ [c] ++ (d.toList ++ x)), canonical_ne_of_prefix hd ?_⟩
  rw [canonical, ofKeys, ofMembers, hset, String.toList_intercalate, List.map_cons, List.map_cons,
    List.map_nil, List.intercalate_cons_cons, String.toList_ofList]
  exact hx.prefix_append.trans (List.prefix_append _ _)

/-- The canonical key is a normal form of the labels that keys name exactly if the delimiter is
unambiguous. -/
theorem canonical_normal_iff_unambiguous (d : String) :
    (Unambiguous d →
      (∀ ks, Increasing (members d (ofKeys d ks)) ∧
        ∀ a, a ∈ members d (ofKeys d ks) ↔ ∃ k ∈ ks, a ∈ members d k) ∧
      (∀ k, canonical d (canonical d k) = canonical d k) ∧
      ∀ ks ls, ofKeys d (ofKeys d ks :: ls) = ofKeys d (ks ++ ls)) ∧
    (¬ Unambiguous d → ∃ k, canonical d (canonical d k) ≠ canonical d k) := by
  refine ⟨fun h => ⟨fun ks => ⟨?_, fun a => h.mem_members_ofKeys⟩, fun k => ?_, ?_⟩,
    exists_canonical_ne⟩
  · rw [h.members_ofKeys]
    exact Members.increasing _
  · exact h.ofKeys_cons_ofKeys [k] []
  · exact h.ofKeys_cons_ofKeys

theorem canonical_normal_under_comma :
    (Unambiguous "," ∧ (∃ ls, members "," (ofKeys "," ["q2,q1", ",q1"]) = ls ∧ Increasing ls) ∧
      ofKeys "," [ofKeys "," ["q2,q1", ",q1"], "q0"] = ofKeys "," ["q2,q1", ",q1", "q0"]) ∧
    ¬ Unambiguous "aba" ∧ ∃ k, canonical "aba" (canonical "aba" k) ≠ canonical "aba" k := by
  have hcomma : Unambiguous "," := by decide
  have hperiodic : ¬ Unambiguous "aba" := by decide
  obtain ⟨hread, -, hjoin⟩ := (canonical_normal_iff_unambiguous ",").1 hcomma
  exact ⟨⟨hcomma, ⟨_, rfl, (hread _).1⟩, hjoin ["q2,q1", ",q1"] ["q0"]⟩, hperiodic,
    (canonical_normal_iff_unambiguous "aba").2 hperiodic⟩

end Determinizer.Key
