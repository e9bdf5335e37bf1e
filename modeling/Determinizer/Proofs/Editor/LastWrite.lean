import Determinizer.Proofs.Editor.Runs
import Determinizer.Proofs.Nfa.NormalForm

/-! What an editor holds for a state and a symbol. A step may write destinations down for them: it
sets them, or it loads transitions, which writes for every pair at once. Whatever was written last
is what the editor holds, also where a load breaks off right after it. A pair without destinations
has no entry, so the listed transitions are those of the pairs with destinations, and they are all
there is to convert. -/

namespace Determinizer

namespace Transition

def recorded (ts : List Transition) (q a : String) : List String :=
  (ts.filter fun t => t.state = q ∧ t.symbol = a).flatMap (·.nextStates)

theorem mem_recorded {ts : List Transition} {q a p : String} :
    p ∈ recorded ts q a ↔ Denotes ts q a p := by
  simp only [recorded, Denotes, List.mem_flatMap, List.mem_filter, decide_eq_true_eq, and_assoc]

end Transition

namespace Editor

open Transition (departure recorded)

variable {e : Editor} {s : Step} {steps : List Step} {delimiter q a q' a' p text : String}
  {l : List String}

/-- A step writes a list of destinations down for a pair. Of a document this needs that its labels
pass; a draft need not be complete. -/
inductive Step.Writes [Host] (delimiter q a : String) : Step → List String → Prop
  | set (text : String) : Writes delimiter q a (.setTransition q a text) (Field.items text)
  | draft {d : Config.Draft} {ts : List Transition} :
    d.Reaches ts → Writes delimiter q a (.loadDraft d) (recorded ts q a)
  | document {s : Step} {c : Config} :
    s.document? = some (.ok c) → c.checkLabels delimiter = .ok () →
    Writes delimiter q a s (recorded c.transitions q a)

inductive LastWritten [Host] (delimiter q a : String) : List Step → List String → Prop
  | nil : LastWritten delimiter q a [] []
  | written (steps : List Step) {s : Step} {l : List String} :
    s.Writes delimiter q a l → LastWritten delimiter q a (steps ++ [s]) l
  | kept (steps : List Step) {s : Step} {l : List String} :
    (∀ l', ¬ s.Writes delimiter q a l') → LastWritten delimiter q a steps l →
    LastWritten delimiter q a (steps ++ [s]) l

theorem exists_lastWritten [Host] (delimiter q a : String) (steps : List Step) :
    ∃ l, LastWritten delimiter q a steps l := by
  induction steps using List.reverseRecOn with
  | nil => exact ⟨[], .nil⟩
  | append_singleton steps s ih =>
    by_cases hwrites : ∃ l, s.Writes delimiter q a l
    · obtain ⟨l, hl⟩ := hwrites
      exact ⟨l, .written steps hl⟩
    · obtain ⟨l, hl⟩ := ih
      exact ⟨l, .kept steps (not_exists.1 hwrites) hl⟩

theorem get?_setTransition (e : Editor) (q a text : String) (d : Departure) :
    (e.setTransition q a text).transitions.get? d =
      if d = ⟨q, a⟩ then
        if (Field.items text).isEmpty then none else some (Members.ofList (Field.items text))
      else e.transitions.get? d := by
  simp only [setTransition]
  cases (Field.items text).isEmpty with
  | true => exact e.transitions.get?_erase _ d
  | false => exact e.transitions.get?_put _ d _

theorem mem_destinations_setTransition :
    p ∈ (e.setTransition q a text).transitions.destinations q a ↔ p ∈ Field.items text := by
  rw [TransitionMap.destinations, get?_setTransition, if_pos rfl]
  split
  · next h => simp [List.isEmpty_iff.1 h]
  · simp

theorem destinations_setTransition_of_ne (h : ¬ (q = q' ∧ a = a')) :
    (e.setTransition q' a' text).transitions.destinations q a = e.transitions.destinations q a := by
  have hne : (⟨q, a⟩ : Departure) ≠ ⟨q', a'⟩ := by
    rwa [ne_eq, Departure.mk.injEq]
  rw [TransitionMap.destinations, get?_setTransition, if_neg hne, ← TransitionMap.destinations]

theorem mem_destinations_ofTransitions_recorded {ts : List Transition} :
    p ∈ (TransitionMap.ofTransitions ts).destinations q a ↔ p ∈ recorded ts q a :=
  TransitionMap.mem_destinations_ofTransitions.trans Transition.mem_recorded.symm

theorem transitions_step_loadDraft [Host] (e : Editor) (d : Config.Draft) :
    (e.step (.loadDraft d)).2.transitions = e.transitions ∧ (∀ ts, ¬ d.Reaches ts) ∨
      ∃ ts, d.Reaches ts ∧ (e.step (.loadDraft d)).2.transitions = .ofTransitions ts := by
  rw [snd_step_loadDraft]
  exact (leaves_loadDraft d e).2.1

theorem mem_destinations_step [Host] (h : s.Writes e.delimiter q a l) :
    p ∈ (e.step s).2.transitions.destinations q a ↔ p ∈ l := by
  cases h with
  | set text => exact mem_destinations_setTransition
  | draft hreaches =>
    obtain ⟨-, hnot⟩ | ⟨ts, hts, htransitions⟩ := transitions_step_loadDraft e _
    · exact absurd hreaches (hnot _)
    · rw [htransitions, hts.unique hreaches]
      exact mem_destinations_ofTransitions_recorded
  | document hs hlabels =>
    rw [step_document_accepted hs hlabels]
    exact mem_destinations_ofTransitions_recorded

theorem destinations_step_of_not_writes [Host] (h : ∀ l, ¬ s.Writes e.delimiter q a l) :
    (e.step s).2.transitions.destinations q a = e.transitions.destinations q a := by
  have hdocument : ∀ loaded, s.document? = some loaded →
      (e.step s).2.transitions = e.transitions := by
    intro loaded hs
    cases loaded with
    | error error => rw [step_document_broken hs]
    | ok c =>
      cases hlabels : c.checkLabels e.delimiter with
      | error fault => rw [step_document_mislabelled hs hlabels]
      | ok _ => exact absurd (.document hs hlabels) (h _)
  cases s with
  | setTransition q' a' text =>
    refine destinations_setTransition_of_ne ?_
    rintro ⟨rfl, rfl⟩
    exact h _ (.set text)
  | convert =>
    rcases e.step_convert_cases with ⟨fault, -, hstep⟩ | ⟨-, hstep⟩ <;> rw [hstep]
  | loadDraft d =>
    obtain ⟨hkept, -⟩ | ⟨ts, hts, -⟩ := transitions_step_loadDraft e d
    · rw [hkept]
    · exact absurd (.draft hts) (h _)
  | loadText text => rw [hdocument _ rfl]
  | loadBytes bytes => rw [hdocument _ rfl]
  | _ => rfl

theorem LastWritten.mem_destinations [Host] (h : LastWritten delimiter q a steps l) :
    p ∈ ((fresh delimiter).after steps).transitions.destinations q a ↔ p ∈ l := by
  induction h with
  | nil => exact iff_of_false (Members.not_mem_empty p) List.not_mem_nil
  | written steps hwrites =>
    rw [after_concat]
    refine mem_destinations_step ?_
    rwa [delimiter_after]
  | kept steps hnot _ ih =>
    rw [after_concat, destinations_step_of_not_writes]
    · exact ih
    · rwa [delimiter_after]

theorem mem_transitions_toConfig_iff {t : Transition} : t ∈ e.toConfig.transitions ↔
    t.nextStates = e.getTransition t.state t.symbol ∧ t.nextStates ≠ [] := by
  have hempty : ∀ targets : Members, targets ≠ ∅ ↔ targets.toList ≠ [] := by
    intro targets
    rw [ne_eq, ← Members.isEmpty_iff, Members.isEmpty, List.isEmpty_iff]
  have hmem : t ∈ e.toConfig.transitions ↔
      e.transitions.destinations t.state t.symbol ≠ ∅ ∧
        t.nextStates = e.getTransition t.state t.symbol := TransitionMap.mem_toTransitions
  rw [hmem, hempty, and_comm]
  exact and_congr_right fun hnext => by rw [hnext, getTransition]

theorem canConvert_iff (h : e.transitions.Reduced) :
    e.canConvert = true ↔ e.toConfig.transitions ≠ [] := by
  rw [canConvert, toConfig, TransitionMap.toTransitions, h.reduce_eq, TransitionMap.isEmpty, ne_eq,
    List.map_eq_nil_iff, Bool.not_eq_true', List.isEmpty_eq_false_iff]

/-- After any script from a fresh editor, failed steps included, the editor holds for each pair what
was last written for it, sorted and without repetition. No entry is empty. The list of transitions
has just the pairs with destinations, each of them once and in their order, and there is something
to convert just if there is something in the list. -/
theorem last_write_wins [Host] (delimiter : String) (steps : List Step) :
    let e := (fresh delimiter).after steps
    e.transitions.Reduced ∧
    (∀ q a, Increasing (e.getTransition q a) ∧ (∃ l, LastWritten delimiter q a steps l) ∧
      ∀ l, LastWritten delimiter q a steps l → ∀ p, p ∈ e.getTransition q a ↔ p ∈ l) ∧
    Increasing (e.toConfig.transitions.map departure) ∧
    (∀ t, t ∈ e.toConfig.transitions ↔
      t.nextStates = e.getTransition t.state t.symbol ∧ t.nextStates ≠ []) ∧
    (e.canConvert = true ↔ e.toConfig.transitions ≠ []) := by
  intro e
  have hreduced : e.transitions.Reduced := reduced_after TransitionMap.reduced_empty steps
  refine ⟨hreduced, fun q a => ⟨Members.increasing _, exists_lastWritten delimiter q a steps, ?_⟩,
    (Transition.normal_toTransitions _).departures, fun t => mem_transitions_toConfig_iff,
    canConvert_iff hreduced⟩
  exact fun l hl p => hl.mem_destinations

def unstarted : Config.Draft where
  states := some []
  alphabet := some []
  transitions := some ([⟨"q", "b", ["p", "p"]⟩, ⟨"q", "a", ["q"]⟩, ⟨"q", "b", ["o"]⟩].map
    Transition.toDraft)
  initialState := none
  acceptingStates := some []

theorem reaches_unstarted : unstarted.Reaches
    [⟨"q", "b", ["p", "p"]⟩, ⟨"q", "a", ["q"]⟩, ⟨"q", "b", ["o"]⟩] :=
  ⟨⟨_, rfl⟩, ⟨_, rfl⟩, rfl⟩

theorem not_writes_setTransition [Host] (h : ¬ (q = q' ∧ a = a')) (l : List String) :
    ¬ (Step.setTransition q' a' text).Writes delimiter q a l := by
  intro hwrites
  cases hwrites with
  | set text => exact h ⟨rfl, rfl⟩
  | document hs hlabels => cases hs

def brokenOff : List Step :=
  [.setTransition "q" "b" "x", .loadDraft unstarted, .setTransition "q" "a" " ,"]

theorem brokenOff_transitions :
    let e := (fresh "").after brokenOff
    e.initialState = "" ∧ e.getTransition "q" "b" = ["o", "p"] ∧ e.getTransition "q" "a" = [] ∧
      ⟨"q", "b", ["o", "p"]⟩ ∈ e.toConfig.transitions ∧ e.canConvert = true := by
  intro e
  obtain ⟨-, hpairs, -, hlisted, hconvert⟩ := last_write_wins "" brokenOff
  have hloaded : LastWritten "" "q" "b" brokenOff ["p", "p", "o"] :=
    .kept [_, _] (not_writes_setTransition (by decide))
      (.written [_] (.draft reaches_unstarted))
  have hitems : Field.items " ," = [] := by cbv
  have hblank : LastWritten "" "q" "a" brokenOff (Field.items " ,") :=
    .written [_, _] (.set " ,")
  rw [hitems] at hblank
  obtain ⟨hincreasing, -, hb⟩ := hpairs "q" "b"
  have hnext : e.getTransition "q" "b" = ["o", "p"] := by
    refine hincreasing.ext (by decide) fun p => ?_
    rw [hb _ hloaded p]
    grind
  have hmem : ⟨"q", "b", ["o", "p"]⟩ ∈ e.toConfig.transitions :=
    (hlisted _).2 ⟨hnext.symm, List.cons_ne_nil _ _⟩
  refine ⟨rfl, hnext, ?_, hmem, hconvert.2 (List.ne_nil_of_mem hmem)⟩
  exact List.eq_nil_iff_forall_not_mem.2 fun p hp =>
    List.not_mem_nil (((hpairs "q" "a").2.2 _ hblank p).1 hp)

end Editor
end Determinizer
