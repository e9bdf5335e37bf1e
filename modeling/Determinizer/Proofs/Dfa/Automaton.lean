import Mathlib
import Determinizer.Proofs.Exploration.Renaming
import Determinizer.Proofs.Key.Atomic
import Determinizer.Proofs.Nfa.Denotation

/-! Tables as automata. The names of the rows are the labels, and every entry has one destination.
Under a delimiter that occurs in no name, a name is the key of itself alone, so each row has the row
that it came from. The empty name is the key of no label at all: its row neither accepts nor leads
anywhere, and that is what such a key had in the first place. -/

namespace Determinizer

namespace Table

def toTransitions (t : Table) : List Transition :=
  t.flatMap fun r => r.transitions.map fun e => ⟨r.name, e.1, [e.2]⟩

def toNfa (t : Table) (alphabet : List String) : Nfa where
  alphabet
  transitions := .ofTransitions t.toTransitions
  initial := (t.head?.map Row.name).getD ""
  accepting := (t.filter Row.accepting).map Row.name

variable {t : Table} {alphabet : List String} {q a p : String}

theorem denotes_toTransitions_iff : Transition.Denotes t.toTransitions q a p ↔
    ∃ r ∈ t, r.name = q ∧ (a, p) ∈ r.transitions := by
  constructor
  · rintro ⟨_, hmem, rfl, rfl, hp⟩
    obtain ⟨r, hr, hmem⟩ := List.mem_flatMap.1 hmem
    obtain ⟨e, he, rfl⟩ := List.mem_map.1 hmem
    obtain rfl := List.mem_singleton.1 hp
    exact ⟨r, hr, rfl, he⟩
  · rintro ⟨r, hr, rfl, he⟩
    refine ⟨⟨r.name, a, [p]⟩, ?_, rfl, rfl, List.mem_singleton_self p⟩
    exact List.mem_flatMap.2 ⟨r, hr, List.mem_map.2 ⟨(a, p), he, rfl⟩⟩

theorem mem_destinations_toNfa : p ∈ (t.toNfa alphabet).transitions.destinations q a ↔
    ∃ r ∈ t, r.name = q ∧ (a, p) ∈ r.transitions :=
  TransitionMap.mem_destinations_ofTransitions.trans denotes_toTransitions_iff

theorem mem_accepting_toNfa : q ∈ (t.toNfa alphabet).accepting ↔
    ∃ r ∈ t, r.name = q ∧ r.accepting = true := by
  simp only [toNfa, List.mem_map, List.mem_filter]
  exact exists_congr fun r => and_right_comm.trans and_assoc

end Table

namespace Nfa

variable {N : Nfa} {d d' k a : String} {alphabet : List String}

theorem step?_empty_key (N : Nfa) (d a : String) : N.step? d "" a = none := by
  rw [Option.eq_none_iff_forall_ne_some]
  intro k hk
  rw [step?_eq_some_iff, Key.members_empty_key] at hk
  exact hk.1 rfl

theorem acceptsKey_empty_key (N : Nfa) (d : String) : N.acceptsKey d "" = false := by
  rw [acceptsKey, Key.members_empty_key]
  rfl

theorem exists_row_named_iff (hk : N.Reachable d k) {P : Row String → Prop} :
    (∃ r ∈ N.determinize d, r.name = k ∧ P r) ↔ P (N.row d k) := by
  constructor
  · rintro ⟨r, hr, rfl, hP⟩
    obtain ⟨k, -, rfl⟩ := mem_determinize_iff.1 hr
    exact hP
  · intro hP
    exact ⟨N.row d k, mem_determinize_iff.2 ⟨k, hk, rfl⟩, rfl, hP⟩

theorem destinations_toNfa (hk : N.Reachable d k) (alphabet : List String) (a : String) :
    ((N.determinize d).toNfa alphabet).transitions.destinations k a =
      Members.ofList ((N.row d k).target? a).toList := by
  ext p
  rw [Table.mem_destinations_toNfa, exists_row_named_iff hk, mem_transitions_row, target?_row,
    Members.mem_ofList, Option.mem_toList]
  split
  · next ha => exact and_iff_right ha
  · next ha => exact iff_of_false (fun h => ha h.1) (by simp)

section ToNfa

variable (hd' : d' ≠ "") (hfree : ∀ k, N.Reachable d k → ¬ d'.toList <:+: k.toList)
include hd' hfree

theorem step?_toNfa (hk : N.Reachable d k) (ha : a ∈ N.alphabet) :
    ((N.determinize d).toNfa alphabet).step? d' k a = N.step? d k a := by
  by_cases hne : k = ""
  -- the empty name is the key of no label, here as there
  · subst hne
    rw [step?_empty_key, step?_empty_key]
  · have hname : Key.members d' k = [k] := (Key.atomic_iff_not_occurs hd').2 ⟨hne, hfree k hk⟩
    have hnext : ((N.determinize d).toNfa alphabet).transitions.next (Key.members d' k) a =
        Members.ofList (N.step? d k a).toList := by
      rw [hname, TransitionMap.next_singleton, destinations_toNfa hk, target?_row, if_pos ha]
    rw [step?, hnext]
    -- the only destination is a key already, so it stays as it is
    cases hstep : N.step? d k a with
    | none => rfl
    | some target =>
      have htarget := hfree target (hk.of_step? ha hstep)
      exact congrArg some (Key.canonical_of_not_occurs hd' htarget)

theorem acceptsKey_toNfa (hk : N.Reachable d k) :
    ((N.determinize d).toNfa alphabet).acceptsKey d' k = N.acceptsKey d k := by
  by_cases hne : k = ""
  · subst hne
    rw [acceptsKey_empty_key, acceptsKey_empty_key]
  · have hname : Key.members d' k = [k] := (Key.atomic_iff_not_occurs hd').2 ⟨hne, hfree k hk⟩
    have haccepting : k ∈ ((N.determinize d).toNfa alphabet).accepting ↔
        N.acceptsKey d k = true :=
      Table.mem_accepting_toNfa.trans (exists_row_named_iff hk)
    rw [Bool.eq_iff_iff, acceptsKey, hname]
    simpa using haccepting

end ToNfa

/-- A table read as an automaton whose states are called by the names of its rows has the same
table, under every delimiter that occurs in none of the names. -/
theorem determinize_toNfa (N : Nfa) {d d' : String} (hd' : d' ≠ "")
    (hfree : ∀ r ∈ N.determinize d, ¬ d'.toList <:+: r.name.toList) :
    ((N.determinize d).toNfa N.alphabet).determinize d' = N.determinize d := by
  have hkeys : ∀ k, N.Reachable d k → ¬ d'.toList <:+: k.toList := fun k hk =>
    hfree _ (mem_determinize_iff.2 ⟨k, hk, rfl⟩)
  refine determinize_congr ?_ fun k hk => ?_
  · have hinitial : ((N.determinize d).toNfa N.alphabet).initial =
        Key.canonical d N.initial := by
      rw [Table.toNfa, head?_determinize]
      rfl
    rw [hinitial]
    exact Key.canonical_of_not_occurs hd' (hkeys _ .start)
  · exact row_eq_row rfl (fun a ha => step?_toNfa hd' hkeys hk ha) (acceptsKey_toNfa hd' hkeys hk)

/-- On `1` the label `B` leads to the delimiter, which is the key of no label. -/
def emptyTarget : Nfa where
  alphabet := ["0", "1", "0"]
  transitions := .ofTransitions [⟨"A", "0", ["B", "A"]⟩, ⟨"B", "1", [","]⟩]
  initial := "A"
  accepting := ["B"]

theorem determinize_emptyTarget :
    emptyTarget.determinize "," =
        [⟨"A", false, [("0", "A,B")]⟩, ⟨"A,B", true, [("0", "A,B"), ("1", "")]⟩, ⟨"", false, []⟩] ∧
      ((emptyTarget.determinize ",").toNfa emptyTarget.alphabet).determinize "|" =
        emptyTarget.determinize "," := by
  have htable : emptyTarget.determinize "," =
      [⟨"A", false, [("0", "A,B")]⟩, ⟨"A,B", true, [("0", "A,B"), ("1", "")]⟩,
        ⟨"", false, []⟩] := by cbv
  refine ⟨htable, determinize_toNfa emptyTarget (by decide) ?_⟩
  rw [htable]
  decide

end Nfa
end Determinizer
