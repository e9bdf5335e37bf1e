import Determinizer.Proofs.Dfa.Automaton
import Determinizer.Proofs.Nfa.Language

/-! The empty key. It is the key of no label, so its row neither accepts nor leads anywhere. A step
is left out when it has no destinations; one whose destinations all name nothing would lead to the
empty key all the same. Labels that pass the check name themselves, so then no step leads there, and
the empty key can only be the one at which a table starts, and ends. -/

namespace Determinizer.Key

variable {d key : String} {keys : List String} {m : Members}

theorem intercalate_eq_empty_iff {ls : List String} (hne : ∀ a ∈ ls, a ≠ "") :
    d.intercalate ls = "" ↔ ls = [] := by
  cases ls with
  | nil => simp
  | cons a ls =>
    have ha : a ≠ "" := hne a List.mem_cons_self
    cases ls with
    | nil => simp [ha]
    | cons b ls => simp [String.append_eq_empty_iff, ha]

theorem ofMembers_eq_empty_iff (hne : ∀ a ∈ m, a ≠ "") : ofMembers d m = "" ↔ m = ∅ := by
  rw [ofMembers, intercalate_eq_empty_iff hne, ← List.isEmpty_iff]
  exact Members.isEmpty_iff

theorem ofKeys_eq_empty_iff : ofKeys d keys = "" ↔ ∀ k ∈ keys, members d k = [] := by
  have hne : ∀ a ∈ memberSet d keys, a ≠ "" := by
    intro a ha
    obtain ⟨k, -, hk⟩ := mem_memberSet.1 ha
    exact ne_empty_of_mem_members hk
  rw [ofKeys, ofMembers_eq_empty_iff hne]
  constructor
  · intro h k hk
    refine List.eq_nil_iff_forall_not_mem.2 fun a ha => Members.not_mem_empty a ?_
    rw [← h]
    exact mem_memberSet.2 ⟨k, hk, ha⟩
  · intro h
    ext a
    rw [mem_memberSet]
    refine iff_of_false ?_ (Members.not_mem_empty a)
    rintro ⟨k, hk, ha⟩
    rw [h k hk] at ha
    exact absurd ha List.not_mem_nil

theorem canonical_eq_empty_iff : canonical d key = "" ↔ members d key = [] := by
  rw [canonical, ofKeys_eq_empty_iff, List.forall_mem_singleton]

end Determinizer.Key

namespace Determinizer.Nfa

variable {N : Nfa} {d k a target : String}

theorem row_empty_key (N : Nfa) (d : String) : N.row d "" = ⟨"", false, []⟩ := by
  simp only [row, acceptsKey_empty_key, step?_empty_key, Option.map_none, List.filterMap_none]

theorem step?_eq_some_empty_iff : N.step? d k a = some "" ↔
    N.transitions.next (Key.members d k) a ≠ ∅ ∧
      ∀ p ∈ N.transitions.next (Key.members d k) a, Key.members d p = [] := by
  rw [step?_eq_some_iff, eq_comm (a := ""), Key.ofKeys_eq_empty_iff]
  exact Iff.rfl

theorem AtomicDestinations.step?_ne_empty (h : N.AtomicDestinations d)
    (hstep : N.step? d k a = some target) : target ≠ "" := by
  rintro rfl
  obtain ⟨hsome, hnone⟩ := step?_eq_some_empty_iff.1 hstep
  refine hsome (Members.ext fun p => iff_of_false (fun hp => ?_) (Members.not_mem_empty p))
  have hatom : Key.members d p = [p] := h.next _ a p hp
  rw [hnone p hp] at hatom
  cases hatom

theorem Reachable.eq_empty (hinitial : Key.members d N.initial = []) (h : N.Reachable d k) :
    k = "" := by
  induction h with
  | start => exact Key.canonical_eq_empty_iff.2 hinitial
  | step _ _ hne ih =>
    subst ih
    have hstep := step?_eq_some_iff.2 ⟨hne, rfl⟩
    rw [step?_empty_key] at hstep
    cases hstep

theorem determinize_of_no_members (hinitial : Key.members d N.initial = []) :
    N.determinize d = [⟨"", false, []⟩] := by
  obtain ⟨ks, hrows, hnodup, hfirst, hks⟩ := exists_keys N d
  have hempty : ∀ k ∈ ks, k = "" := fun k hk => ((hks k).1 hk).eq_empty hinitial
  match ks with
  | [] => cases hfirst
  | [k] =>
    rw [hrows, hempty k (by simp), List.map_singleton, row_empty_key]
  | k :: l :: ls =>
    have heq : k = l := (hempty k (by simp)).trans (hempty l (by simp)).symm
    simp [heq] at hnodup

theorem AtomicDestinations.members_initial (h : N.AtomicDestinations d)
    (hreach : N.Reachable d k) (hk : k = "") : Key.members d N.initial = [] := by
  cases hreach with
  | start => exact Key.canonical_eq_empty_iff.1 hk
  | step _ _ hne => exact absurd hk (h.step?_ne_empty (step?_eq_some_iff.2 ⟨hne, rfl⟩))

end Determinizer.Nfa

namespace Determinizer.Config

variable {c : Config} {d : String}

/-- Only a start without members has the empty key for its name. The table then is that row, which
does not accept and has no entries. No entry of any table has the empty key as its target. -/
theorem empty_key_only_at_start (hlabels : c.checkLabels d = .ok ()) :
    (∀ i r, (c.determinize d)[i]? = some r → r.name = "" →
      i = 0 ∧ Key.members d c.initialState = [] ∧ r.accepting = false ∧ r.transitions = []) ∧
    (Key.members d c.initialState = [] → c.determinize d = [⟨"", false, []⟩]) ∧
    ∀ r ∈ c.determinize d, ∀ a target, (a, target) ∈ r.transitions → target ≠ "" := by
  have hatomic := atomicDestinations hlabels
  refine ⟨fun i r hi hname => ?_, fun h => Nfa.determinize_of_no_members (N := c.toNfa) h,
    fun r hr a target hentry => ?_⟩
  · obtain ⟨k, hk, rfl⟩ := Nfa.mem_determinize_iff.1 (List.mem_of_getElem? hi)
    have hinitial := hatomic.members_initial hk hname
    rw [determinize, Nfa.determinize_of_no_members hinitial, List.getElem?_singleton] at hi
    split at hi
    · next hfirst =>
      rw [← Option.some.inj hi]
      exact ⟨hfirst, hinitial, rfl, rfl⟩
    · cases hi
  · obtain ⟨k, -, rfl⟩ := Nfa.mem_determinize_iff.1 hr
    exact hatomic.step?_ne_empty (Nfa.mem_transitions_row.1 hentry).2

def overlapping : Config where
  states := ["a", "b"]
  alphabet := ["0", "1"]
  transitions := [⟨"b", "0", ["b", "a"]⟩, ⟨"a", "1", []⟩]
  initialState := "b"
  acceptingStates := ["b"]

theorem empty_key_under_doubled_letter :
    overlapping.checkLabels "aa" = .ok () ∧
      overlapping.determinize "aa" = [⟨"b", true, [("0", "aaab")]⟩, ⟨"aaab", false, []⟩] ∧
      (∀ r ∈ overlapping.determinize "aa", ∀ a target, (a, target) ∈ r.transitions → target ≠ "") ∧
      ({ overlapping with initialState := "aaaa" } : Config).checkLabels "aa" = .ok () ∧
      Key.members "aa" "aaaa" = [] ∧
      ({ overlapping with initialState := "aaaa" } : Config).determinize "aa" =
        [⟨"", false, []⟩] := by
  have hlabels : overlapping.checkLabels "aa" = .ok () := by cbv
  have hempty : ({ overlapping with initialState := "aaaa" } : Config).checkLabels "aa" = .ok () := by
    cbv
  have hmembers : Key.members "aa" "aaaa" = [] := by cbv
  exact ⟨hlabels, by cbv, (empty_key_only_at_start hlabels).2.2, hempty, hmembers,
    (empty_key_only_at_start hempty).2.1 hmembers⟩

end Determinizer.Config
