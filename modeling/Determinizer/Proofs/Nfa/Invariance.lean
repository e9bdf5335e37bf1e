import Determinizer.Proofs.Exploration.Renaming
import Determinizer.Proofs.Nfa.Language

/-! What a table depends on. Two configurations that denote the same transitions, accepting and
initial states have the same table, in whatever order and form they write them. Other labels and
another delimiter change the table by the names alone: the order of the labels within a key may turn
round, but not the order in which keys are discovered. -/

namespace Determinizer

namespace Members

variable {r : String → String} {S T : Members} {q : String}

def image (r : String → String) (S : Members) : Members := ofList (S.toList.map r)

@[simp] theorem mem_image : q ∈ S.image r ↔ ∃ p ∈ S, r p = q := by
  rw [image, mem_ofList, List.mem_map]
  rfl

theorem image_eq_empty_iff : S.image r = ∅ ↔ S = ∅ := by
  constructor
  · intro h
    ext q
    have hq : r q ∉ S.image r := h ▸ not_mem_empty (r q)
    exact iff_of_false (fun hS => hq (mem_image.2 ⟨q, hS, rfl⟩)) (not_mem_empty q)
  · rintro rfl
    rfl

theorem image_injOn {L : Set String} (hr : Set.InjOn r L) (hS : ∀ q ∈ S, q ∈ L)
    (hT : ∀ q ∈ T, q ∈ L) (h : S.image r = T.image r) : S = T := by
  have hmem : ∀ {A B : Members}, (∀ q ∈ A, q ∈ L) → (∀ q ∈ B, q ∈ L) →
      A.image r = B.image r → ∀ q ∈ A, q ∈ B := by
    intro A B hA hB heq q hq
    have himage : r q ∈ B.image r := heq ▸ mem_image.2 ⟨q, hq, rfl⟩
    obtain ⟨p, hp, hpq⟩ := mem_image.1 himage
    exact hr (hB p hp) (hA q hq) hpq ▸ hp
  ext q
  exact ⟨hmem hS hT h q, hmem hT hS h.symm q⟩

end Members

namespace Nfa

variable {N N' : Nfa} {d d' : String} {r : String → String}

def Takes (N : Nfa) (d q : String) : Prop :=
  q ∈ Key.members d N.initial ∨ ∃ p a, q ∈ N.transitions.destinations p a

theorem Takes.atomic (hN : N.AtomicDestinations d) {q : String} (h : N.Takes d q) :
    Key.Atomic d q := by
  rcases h with hinit | ⟨p, a, hdest⟩
  · exact Key.atomic_of_mem_members hinit
  · exact hN p a q hdest

theorem next_takes {states : List String} {a q : String}
    (h : q ∈ N.transitions.next states a) : N.Takes d q := by
  obtain ⟨p, -, hp⟩ := TransitionMap.mem_next.1 h
  exact .inr ⟨p, a, hp⟩

theorem Reachable.exists_members (hN : N.AtomicDestinations d) {k : String}
    (h : N.Reachable d k) : ∃ S : Members, k = Key.ofMembers d S ∧ ∀ q ∈ S, N.Takes d q := by
  cases h with
  | start =>
    refine ⟨Key.memberSet d [N.initial], rfl, fun q hq => .inl ?_⟩
    simpa using hq
  | @step k a _ _ _ =>
    refine ⟨N.transitions.next (Key.members d k) a, ?_, fun q hq => next_takes hq⟩
    rw [Key.ofKeys_of_atomic fun p hp => hN.next _ _ p hp, Members.ofList_toList]

structure Relabels (r : String → String) (N : Nfa) (d : String) (N' : Nfa) (d' : String) :
    Prop where
  alphabet : N'.alphabet = N.alphabet
  transitions : ∀ q a p, p ∈ N'.transitions.destinations q a ↔
    ∃ q₀ p₀, p₀ ∈ N.transitions.destinations q₀ a ∧ r q₀ = q ∧ r p₀ = p
  initial : ∀ q, q ∈ Key.members d' N'.initial ↔ ∃ q₀ ∈ Key.members d N.initial, r q₀ = q
  accepting : ∀ q, q ∈ N'.accepting ↔ ∃ q₀ ∈ N.accepting, r q₀ = q
  injOn : Set.InjOn r {q | N.Takes d q ∨ q ∈ N.accepting ∨
    ∃ a p, p ∈ N.transitions.destinations q a}

section Relabels

variable (h : N.Relabels r d N' d')
include h

theorem Relabels.takes {q : String} (hq : N.Takes d q) : N'.Takes d' (r q) := by
  rcases hq with hinit | ⟨p, a, hdest⟩
  · exact .inl ((h.initial _).2 ⟨q, hinit, rfl⟩)
  · exact .inr ⟨r p, a, (h.transitions _ _ _).2 ⟨p, q, hdest, rfl, rfl⟩⟩

theorem Relabels.next {S : Members} (hS : ∀ q ∈ S, N.Takes d q) (a : String) :
    N'.transitions.next (S.image r).toList a = (N.transitions.next S.toList a).image r := by
  ext p
  rw [TransitionMap.mem_next, Members.mem_image]
  constructor
  · rintro ⟨q', hq', hp⟩
    obtain ⟨q, hq, rfl⟩ := Members.mem_image.1 hq'
    obtain ⟨q₀, p₀, hp₀, heq, rfl⟩ := (h.transitions _ _ _).1 hp
    -- the label that has the same name is the same
    have hqq : q₀ = q := h.injOn (.inr (.inr ⟨a, p₀, hp₀⟩)) (.inl (hS q hq)) heq
    exact ⟨p₀, TransitionMap.mem_next.2 ⟨q, hq, hqq ▸ hp₀⟩, rfl⟩
  · rintro ⟨p₀, hp₀, rfl⟩
    obtain ⟨q, hq, hp₀⟩ := TransitionMap.mem_next.1 hp₀
    exact ⟨r q, Members.mem_image.2 ⟨q, hq, rfl⟩, (h.transitions _ _ _).2 ⟨q, p₀, hp₀, rfl, rfl⟩⟩

variable (hN : N.AtomicDestinations d) (hN' : N'.AtomicDestinations d')
include hN'

theorem Relabels.atomic_image {S : Members} (hS : ∀ q ∈ S, N.Takes d q) :
    ∀ q ∈ S.image r, Key.Atomic d' q := by
  intro q hq
  obtain ⟨p, hp, rfl⟩ := Members.mem_image.1 hq
  exact (h.takes (hS p hp)).atomic hN'

variable (hd : Key.Unambiguous d) (hd' : Key.Unambiguous d')
include hN hd

theorem Relabels.key_eq {S : Members} (hS : ∀ q ∈ S, N.Takes d q) :
    Key.ofKeys d' ((Key.members d (Key.ofMembers d S)).map r) =
      Key.ofMembers d' (S.image r) := by
  have hatom : ∀ q ∈ S.toList.map r, Key.Atomic d' q := by
    intro q hq
    exact h.atomic_image hN' hS q (Members.mem_ofList.2 hq)
  rw [hd.members_ofMembers fun q hq => (hS q hq).atomic hN, Key.ofKeys_of_atomic hatom]
  rfl

include hd'

theorem Relabels.step? {S : Members} (hS : ∀ q ∈ S, N.Takes d q) (a : String) :
    N'.step? d' (Key.ofMembers d' (S.image r)) a =
      (N.step? d (Key.ofMembers d S) a).map
        fun k => Key.ofKeys d' ((Key.members d k).map r) := by
  rw [step?_ofMembers hd' hN' (h.atomic_image hN' hS), h.next hS,
    step?_ofMembers hd hN fun q hq => (hS q hq).atomic hN,
    if_congr Members.image_eq_empty_iff rfl rfl]
  split
  · rfl
  · rw [Option.map_some, h.key_eq hN hN' hd fun q hq => next_takes hq]

theorem Relabels.acceptsKey {S : Members} (hS : ∀ q ∈ S, N.Takes d q) :
    N'.acceptsKey d' (Key.ofMembers d' (S.image r)) =
      N.acceptsKey d (Key.ofMembers d S) := by
  rw [Bool.eq_iff_iff]
  simp only [Nfa.acceptsKey, List.any_eq_true, decide_eq_true_eq]
  rw [hd'.members_ofMembers (h.atomic_image hN' hS),
    hd.members_ofMembers fun q hq => (hS q hq).atomic hN]
  constructor
  · rintro ⟨q', hq', hacc⟩
    obtain ⟨q, hq, rfl⟩ := Members.mem_image.1 hq'
    obtain ⟨q₀, hq₀, heq⟩ := (h.accepting _).1 hacc
    have hqq : q₀ = q := h.injOn (.inr (.inl hq₀)) (.inl (hS q hq)) heq
    exact ⟨q, hq, hqq ▸ hq₀⟩
  · rintro ⟨q, hq, hacc⟩
    exact ⟨r q, Members.mem_image.2 ⟨q, hq, rfl⟩, (h.accepting _).2 ⟨q, hacc, rfl⟩⟩

theorem Relabels.renames :
    N.Renames (fun k => Key.ofKeys d' ((Key.members d k).map r)) d N' d' where
  start := by
    have hinit : ∀ q ∈ Key.memberSet d [N.initial], N.Takes d q := fun q hq =>
      .inl (by simpa using hq)
    change Key.ofMembers d' (Key.memberSet d' [N'.initial]) =
      Key.ofKeys d' ((Key.members d (Key.ofMembers d (Key.memberSet d [N.initial]))).map r)
    rw [h.key_eq hN hN' hd hinit]
    congr 1
    ext q
    simp [h.initial]
  injOn := by
    intro k hk l hl heq
    obtain ⟨S, rfl, hS⟩ := Reachable.exists_members hN hk
    obtain ⟨T, rfl, hT⟩ := Reachable.exists_members hN hl
    simp only [h.key_eq hN hN' hd hS, h.key_eq hN hN' hd hT] at heq
    -- both keys are read back under the other delimiter
    have himage : S.image r = T.image r := by
      have hread := congrArg (Key.members d') heq
      rw [hd'.members_ofMembers (h.atomic_image hN' hS),
        hd'.members_ofMembers (h.atomic_image hN' hT)] at hread
      ext q
      rw [Members.mem_def, Members.mem_def, hread]
    rw [Members.image_injOn h.injOn (fun q hq => .inl (hS q hq)) (fun q hq => .inl (hT q hq))
      himage]
  row := by
    intro k hk
    obtain ⟨S, rfl, hS⟩ := Reachable.exists_members hN hk
    have hkey := h.key_eq hN hN' hd hS
    have hstep := h.step? hN hN' hd hd' hS
    simp only [Nfa.row, Row.map, hkey, h.acceptsKey hN hN' hd hd' hS, h.alphabet, hstep,
      List.map_filterMap, Option.map_map]
    rfl

end Relabels

theorem row_congr (halphabet : N'.alphabet = N.alphabet)
    (htransitions : ∀ q a p, p ∈ N'.transitions.destinations q a ↔
      p ∈ N.transitions.destinations q a)
    (haccepting : ∀ q, q ∈ N'.accepting ↔ q ∈ N.accepting) (k : String) :
    N'.row d k = N.row d k := by
  refine row_congr_of_members halphabet (fun q _ a _ => ?_) fun q _ => haccepting q
  ext p
  exact htransitions q a p

end Nfa

namespace Config

open Transition (Denotes denotes_cons denotes_nil)

variable {c c' : Config} {d d' : String} {r : String → String}

/-- The table is the same for all ways to write down the same transitions and the same sets of
accepting and initial states. The listed states do not matter. -/
theorem determinize_eq_of_denotes_iff (halphabet : c'.alphabet = c.alphabet)
    (htransitions : ∀ q a p, Denotes c'.transitions q a p ↔ Denotes c.transitions q a p)
    (haccepting : ∀ q, q ∈ c'.acceptingStates ↔ q ∈ c.acceptingStates)
    (hinitial : ∀ q, q ∈ Key.members d c'.initialState ↔ q ∈ Key.members d c.initialState) :
    c'.determinize d = c.determinize d := by
  refine Nfa.determinize_congr ?_ fun k _ => ?_
  · change Key.ofKeys d [c'.initialState] = Key.ofKeys d [c.initialState]
    refine Key.ofKeys_congr fun q => ?_
    simpa using hinitial q
  · refine Nfa.row_congr halphabet (fun q a p => ?_) haccepting k
    rw [toNfa, toNfa, TransitionMap.mem_destinations_ofTransitions,
      TransitionMap.mem_destinations_ofTransitions]
    exact htransitions q a p

theorem determinize_rewritten_eq :
    (⟨[], ["0", "1"], [⟨"B", "1", ["A"]⟩, ⟨"A", "0", ["B"]⟩, ⟨"A", "1", []⟩, ⟨"A", "0", ["A", "B"]⟩],
        "BAB", ["B", "B"]⟩ : Config).determinize "" =
      (⟨["A", "B"], ["0", "1"], [⟨"A", "0", ["A", "B"]⟩, ⟨"B", "1", ["A"]⟩], "AB", ["B"]⟩ :
        Config).determinize "" := by
  refine determinize_eq_of_denotes_iff rfl (fun q a p => ?_) (fun q => ?_) fun q => ?_
  · simp only [denotes_cons, denotes_nil, List.mem_cons, List.not_mem_nil, or_false, and_false]
    grind
  · simp
  · simp only [Key.members_empty_delimiter]
    simp
    grind

theorem relabels (halphabet : c'.alphabet = c.alphabet)
    (htransitions : ∀ q a p, Denotes c'.transitions q a p ↔
      ∃ q₀ p₀, Denotes c.transitions q₀ a p₀ ∧ r q₀ = q ∧ r p₀ = p)
    (haccepting : ∀ q, q ∈ c'.acceptingStates ↔ ∃ q₀ ∈ c.acceptingStates, r q₀ = q)
    (hinitial : ∀ q, q ∈ Key.members d' c'.initialState ↔
      ∃ q₀ ∈ Key.members d c.initialState, r q₀ = q)
    (hr : Set.InjOn r {q | q ∈ c.labels ∨ q ∈ Key.members d c.initialState}) :
    c.toNfa.Relabels r d c'.toNfa d' where
  alphabet := halphabet
  transitions q a p := by
    simp only [toNfa, TransitionMap.mem_destinations_ofTransitions]
    exact htransitions q a p
  initial := hinitial
  accepting := haccepting
  injOn := by
    refine hr.mono ?_
    simp only [toNfa, Nfa.Takes, TransitionMap.mem_destinations_ofTransitions]
    rintro q ((hinit | ⟨p, a, t, ht, -, -, hq⟩) | hacc | ⟨a, p, t, ht, rfl, -, -⟩)
    · exact .inr hinit
    · refine .inl (List.mem_append_right _ (List.mem_flatMap.2 ⟨t, ht, ?_⟩))
      exact List.mem_cons_of_mem _ hq
    · exact .inl (List.mem_append_left _ (List.mem_append_right _ hacc))
    · exact .inl (List.mem_append_right _ (List.mem_flatMap.2 ⟨t, ht, List.mem_cons_self⟩))

/-- Under unambiguous delimiters the table of a configuration with other labels and another
delimiter has the same rows in the same order, with the renamed labels in all names and targets. -/
theorem determinize_relabelled (hlabels : c.checkLabels d = .ok ())
    (hlabels' : c'.checkLabels d' = .ok ()) (hd : Key.Unambiguous d) (hd' : Key.Unambiguous d')
    (halphabet : c'.alphabet = c.alphabet)
    (htransitions : ∀ q a p, Denotes c'.transitions q a p ↔
      ∃ q₀ p₀, Denotes c.transitions q₀ a p₀ ∧ r q₀ = q ∧ r p₀ = p)
    (haccepting : ∀ q, q ∈ c'.acceptingStates ↔ ∃ q₀ ∈ c.acceptingStates, r q₀ = q)
    (hinitial : ∀ q, q ∈ Key.members d' c'.initialState ↔
      ∃ q₀ ∈ Key.members d c.initialState, r q₀ = q)
    (hr : Set.InjOn r {q | q ∈ c.labels ∨ q ∈ Key.members d c.initialState}) :
    c'.determinize d' =
      (c.determinize d).map (Row.map fun k => Key.ofKeys d' ((Key.members d k).map r)) := by
  have hrelabels := relabels halphabet htransitions haccepting hinitial hr
  have hrenames := hrelabels.renames (atomicDestinations hlabels) (atomicDestinations hlabels') hd hd'
  exact hrenames.determinize

def oneLetter : Config where
  states := ["A", "B"]
  alphabet := ["0", "1"]
  transitions := [⟨"A", "0", ["A", "B"]⟩, ⟨"B", "1", ["A"]⟩]
  initialState := "AB"
  acceptingStates := ["B"]

def twoLetters : Config where
  states := ["z1", "a0"]
  alphabet := ["0", "1"]
  transitions := [⟨"z1", "0", ["a0", "z1"]⟩, ⟨"a0", "1", ["z1"]⟩]
  initialState := "z1=>a0"
  acceptingStates := ["a0"]

theorem determinize_twoLetters :
    (twoLetters.determinize "=>" = (oneLetter.determinize "").map (Row.map fun k =>
        Key.ofKeys "=>" ((Key.members "" k).map fun q => if q = "A" then "z1" else "a0")) ∧
      twoLetters.determinize "=>" =
        [⟨"a0=>z1", true, [("0", "a0=>z1"), ("1", "z1")]⟩, ⟨"z1", false, [("0", "a0=>z1")]⟩]) ∧
    ({ oneLetter with initialState := "B,A" } : Config).determinize "," =
      (oneLetter.determinize "").map (Row.map fun k =>
        Key.ofKeys "," ((Key.members "" k).map id)) := by
  have hone : oneLetter.checkLabels "" = .ok () := by cbv
  have htwo : twoLetters.checkLabels "=>" = .ok () := by cbv
  have hcomma : ({ oneLetter with initialState := "B,A" } : Config).checkLabels "," = .ok () := by
    cbv
  have hlabels : ∀ q, q ∈ oneLetter.labels ∨ q ∈ Key.members "" oneLetter.initialState →
      q = "A" ∨ q = "B" := by
    simp [oneLetter, labels]
    grind
  refine ⟨⟨?_, by cbv⟩, ?_⟩
  · refine determinize_relabelled hone htwo (by decide) (by decide) rfl ?_ ?_ ?_ ?_
    · intro q a p
      simp only [oneLetter, twoLetters, denotes_cons, denotes_nil, or_false, List.mem_cons,
        List.not_mem_nil]
      constructor
      · rintro (⟨rfl, rfl, rfl | rfl⟩ | ⟨rfl, rfl, rfl⟩)
        · exact ⟨"A", "B", by simp⟩
        · exact ⟨"A", "A", by simp⟩
        · exact ⟨"B", "A", by simp⟩
      · rintro ⟨q₀, p₀, ⟨rfl, rfl, rfl | rfl⟩ | ⟨rfl, rfl, rfl⟩, rfl, rfl⟩ <;> simp
    · simp [oneLetter, twoLetters, eq_comm]
    · have hinit : Key.members "=>" twoLetters.initialState = ["z1", "a0"] := by cbv
      rw [hinit]
      simp [oneLetter, eq_comm]
    · intro q hq p hp heq
      rcases hlabels q hq with rfl | rfl <;> rcases hlabels p hp with rfl | rfl <;> simp_all
  · refine determinize_relabelled hone hcomma (by decide) (by decide) rfl ?_ ?_ ?_ (Set.injOn_id _)
    · simp [oneLetter]
    · simp [oneLetter, eq_comm]
    · have hinit : Key.members "," "B,A" = ["B", "A"] := by cbv
      simp only [hinit]
      simp [oneLetter]
      grind

end Config
end Determinizer
