import Determinizer.Config.Labels
import Determinizer.Proofs.Text.Cuts

/-! Atomic labels: those that a key gives back in one piece. Everything that a key names is atomic,
and the check of the labels lets exactly the atomic ones through. -/

namespace Determinizer.Key

variable {d l : String}

theorem toList_ne_nil (hd : d ≠ "") : d.toList ≠ [] := by
  intro h
  exact hd (String.toList_inj.1 h)

theorem members_eq_map (hd : d ≠ "") (key : String) :
    members d key =
      ((Text.splitAround d.toList key.toList).filter (· ≠ [])).map String.ofList := by
  rw [members_of_ne hd, Text.split, List.filter_map]
  congr 1
  refine List.filter_congr fun p _ => ?_
  have h : String.ofList p = "" ↔ p = [] := by simp
  simp only [Function.comp_apply, ne_eq, h]

theorem map_ofList_toList (ls : List String) : (ls.map String.toList).map String.ofList = ls := by
  simp only [List.map_map, Function.comp_def, String.ofList_toList, List.map_id']

theorem members_eq_iff (hd : d ≠ "") {key : String} {ls : List String} :
    members d key = ls ↔
      (Text.splitAround d.toList key.toList).filter (· ≠ []) = ls.map String.toList := by
  rw [members_eq_map hd]
  constructor
  · rintro rfl
    simp only [List.map_map, Function.comp_def, String.toList_ofList, List.map_id']
  · intro h
    rw [h, map_ofList_toList]

theorem atomic_iff_length (l : String) : Atomic "" l ↔ l.length = 1 := by
  rw [Atomic, members_empty_delimiter, ← String.length_toList]
  constructor
  · intro h
    have hlen := congrArg List.length h
    simpa using hlen
  · intro h
    obtain ⟨c, hc⟩ := List.length_eq_one_iff.1 h
    have hl : String.singleton c = l := by
      rw [← String.toList_inj, String.toList_singleton, hc]
    rw [hc, List.map_singleton, hl]

theorem atomic_iff_not_occurs (hd : d ≠ "") :
    Atomic d l ↔ l ≠ "" ∧ ¬ d.toList <:+: l.toList := by
  have hd' := toList_ne_nil hd
  rw [Atomic, members_eq_iff hd, List.map_singleton]
  constructor
  · intro h
    have hone : (Text.splitAround d.toList (d.toList.intercalate [l.toList])).filter (· ≠ []) =
        [l.toList] := by
      rwa [List.intercalate_singleton]
    have hself := Text.splitAround_of_filter hd' hone
    rw [List.intercalate_singleton] at hself
    have hmem : l.toList ∈ (Text.splitAround d.toList l.toList).filter (· ≠ []) := by
      rw [h]
      exact List.mem_singleton_self _
    refine ⟨?_, (Text.splitAround_eq_self_iff hd').1 hself⟩
    rintro rfl
    simpa using (List.mem_filter.1 hmem).2
  · rintro ⟨hne, hfree⟩
    rw [Text.splitAround_of_not_occurs hfree]
    simpa using toList_ne_nil hne

theorem Atomic.ne_empty (h : Atomic d l) : l ≠ "" := by
  have hmem : l ∈ members d l := by
    rw [h]
    exact List.mem_singleton_self l
  exact ne_empty_of_mem_members hmem

theorem members_empty_key (d : String) : members d "" = [] := by
  by_cases hd : d = ""
  · rw [hd]
    rfl
  · rw [members_eq_map hd, String.toList_empty, Text.splitAround_nil]
    rfl

theorem atomic_of_mem_members {key : String} (h : l ∈ members d key) : Atomic d l := by
  by_cases hd : d = ""
  · subst hd
    rw [members_empty_delimiter] at h
    obtain ⟨c, -, rfl⟩ := List.mem_map.1 h
    rw [atomic_iff_length]
    simp
  · have hne := ne_empty_of_mem_members h
    rw [members_eq_map hd] at h
    obtain ⟨p, hp, rfl⟩ := List.mem_map.1 h
    have hfree := Text.not_infix_of_mem_splitAround (toList_ne_nil hd) (List.mem_filter.1 hp).1
    rw [atomic_iff_not_occurs hd, String.toList_ofList]
    exact ⟨hne, hfree⟩

theorem atomic_of_mem_memberSet {keys : List String} (h : l ∈ memberSet d keys) : Atomic d l := by
  obtain ⟨k, -, hk⟩ := mem_memberSet.1 h
  exact atomic_of_mem_members hk

theorem memberSet_of_atomic {ls : List String} (h : ∀ l ∈ ls, Atomic d l) :
    memberSet d ls = Members.ofList ls := by
  ext a
  rw [mem_memberSet, Members.mem_ofList]
  constructor
  · rintro ⟨k, hk, ha⟩
    rw [h k hk, List.mem_singleton] at ha
    rwa [ha]
  · intro ha
    exact ⟨a, ha, by rw [h a ha]; simp⟩

theorem ofKeys_of_atomic {ls : List String} (h : ∀ l ∈ ls, Atomic d l) :
    ofKeys d ls = ofMembers d (Members.ofList ls) := by
  rw [ofKeys, memberSet_of_atomic h]

theorem Atomic.canonical_eq (h : Atomic d l) : canonical d l = l := by
  have hone : (Members.ofList [l]).toList = [l] :=
    Members.toList_ofList_of_increasing (List.pairwise_singleton _ l)
  rw [canonical, ofKeys_of_atomic (by simpa using h), ofMembers, hone]
  exact String.intercalate_singleton

theorem toList_eq_of_ofMembers_eq {m : Members} {k : String} (hne : ∀ a ∈ m, a ≠ "")
    (hk : k.length = 1) (h : ofMembers d m = k) : m.toList = [k] := by
  have hpos : ∀ a ∈ m.toList, 0 < a.toList.length := fun a ha =>
    List.length_pos_iff.2 (toList_ne_nil (hne a ha))
  have hlength : (d.toList.intercalate (m.toList.map String.toList)).length = 1 := by
    rw [← String.toList_intercalate, String.length_toList, ← hk, ← h, ofMembers]
  rw [ofMembers] at h
  match hm : m.toList with
  | [] =>
    rw [hm] at hlength
    exact absurd hlength (by simp)
  | [a] =>
    rw [hm, String.intercalate_singleton] at h
    rw [h]
  | a :: b :: ls =>
    -- two labels have two characters at least
    have ha := hpos a (by simp [hm])
    have hb := hpos b (by simp [hm])
    rw [hm, List.map_cons, List.map_cons, Text.length_intercalate] at hlength
    simp only [List.map_cons, List.sum_cons] at hlength
    omega

theorem canonical_of_not_occurs (hd : d ≠ "") (hfree : ¬ d.toList <:+: l.toList) :
    canonical d l = l := by
  by_cases hl : l = ""
  · subst hl
    have hset : memberSet d [""] = ∅ := by
      ext a
      simp [members_empty_key]
    rw [canonical, ofKeys, hset]
    rfl
  · have hatom : Atomic d l := (atomic_iff_not_occurs hd).2 ⟨hl, hfree⟩
    exact hatom.canonical_eq

end Determinizer.Key

namespace Determinizer

variable {d l : String} {ls : List String}

theorem labelFault?_eq_none_iff (hl : l ≠ "") : labelFault? d l = none ↔ Key.Atomic d l := by
  unfold labelFault?
  split
  · next hd =>
    subst hd
    rw [Key.atomic_iff_length]
    split <;> simp_all
  · next hd =>
    have h : Text.occursIn d.toList l.toList = true ↔ d.toList <:+: l.toList := Text.occursIn_iff
    rw [Key.atomic_iff_not_occurs hd, ← h]
    split <;> simp_all

theorem checkLabels_eq_ok_iff : checkLabels d ls = .ok () ↔ ∀ l ∈ ls, Key.Atomic d l := by
  unfold checkLabels
  split
  · next hempty =>
    have hbad : ¬ ∀ l ∈ ls, Key.Atomic d l := fun h => (h "" hempty).ne_empty rfl
    simpa using hbad
  · next hempty =>
    have hne : ∀ l ∈ ls, l ≠ "" := fun l hl h => hempty (h ▸ hl)
    have hnone : ls.findSome? (labelFault? d) = none ↔ ∀ l ∈ ls, Key.Atomic d l := by
      rw [List.findSome?_eq_none_iff]
      exact forall₂_congr fun l hl => labelFault?_eq_none_iff (hne l hl)
    rw [← hnone]
    split <;> simp_all

theorem Config.atomic_of_checkLabels {c : Config} (h : c.checkLabels d = .ok ())
    (hl : l ∈ c.labels) : Key.Atomic d l :=
  checkLabels_eq_ok_iff.1 h l hl

end Determinizer
