import Determinizer.Proofs.Editor.Field
import Determinizer.Proofs.Editor.LastWrite

/-! A configuration typed into the form. Every list goes into its field with commas between the
items, and the destinations of each pair of a state and a symbol into one of their own, once the
entries of the pair are merged. No two of these steps write to the same place, so they may come in
any order, and they leave the editor that takes the configuration over. -/

namespace Determinizer

/-- What goes into a list field are items, and the initial state has no blanks at its ends. States
and symbols that transitions start from are not typed as lists, so they may be any texts. -/
structure Config.Typable (c : Config) : Prop where
  states : ∀ q ∈ c.states, Field.IsItem q
  alphabet : ∀ a ∈ c.alphabet, Field.IsItem a
  nextStates : ∀ t ∈ c.transitions, ∀ p ∈ t.nextStates, Field.IsItem p
  initialState : Field.strip c.initialState = c.initialState
  acceptingStates : ∀ q ∈ c.acceptingStates, Field.IsItem q

theorem TransitionMap.foldl_put_toTransitions {m : TransitionMap} (h : m.Reduced) :
    m.toTransitions.foldl (fun m t => m.put t.departure (Members.ofList t.nextStates)) ∅ = m := by
  rw [toTransitions, h.reduce_eq, List.foldl_map]
  simp only [Members.ofList_toList]
  exact m.ofEntries_entries

namespace Editor

open Transition (departure)

variable {e : Editor} {s s' : Step} {steps steps' : List Step} {c : Config} {ts : List Transition}
  {delimiter q a q' a' : String}

def Step.Commutes [Host] (s s' : Step) : Prop :=
  ∀ e : Editor, ((e.step s).2.step s').2 = ((e.step s').2.step s).2

instance [Host] : Std.Symm Step.Commutes := ⟨fun _ _ h e => (h e).symm⟩

theorem after_perm [Host] (hsteps : steps.Perm steps') (h : steps.Pairwise Step.Commutes)
    (e : Editor) : e.after steps = e.after steps' := by
  have hall := h.forall_of_forall fun s _ e => rfl
  exact hsteps.foldl_eq' (fun s hs s' hs' e => hall hs hs' e) e

theorem setTransition_comm (h : (⟨q, a⟩ : Departure) ≠ ⟨q', a'⟩) (text text' : String) (e : Editor) :
    (e.setTransition q a text).setTransition q' a' text' =
      (e.setTransition q' a' text').setTransition q a text := by
  have hmap : ((e.setTransition q a text).setTransition q' a' text').transitions =
      ((e.setTransition q' a' text').setTransition q a text).transitions := by
    refine TransitionMap.ext_get? fun d => ?_
    simp only [get?_setTransition]
    by_cases hd : d = ⟨q, a⟩
    · rw [if_pos hd, if_pos hd, if_neg fun hd' => h (hd.symm.trans hd')]
    · rw [if_neg hd, if_neg hd]
  exact congrArg (fun m => { e with transitions := m }) hmap

def typed (t : Transition) : Step :=
  .setTransition t.state t.symbol (",".intercalate t.nextStates)

def typedFields (c : Config) : List Step :=
  [.setStates (",".intercalate c.states), .setAlphabet (",".intercalate c.alphabet),
    .setInitialState c.initialState, .setAcceptingStates (",".intercalate c.acceptingStates)]

def typing (c : Config) : List Step :=
  typedFields c ++ (TransitionMap.ofTransitions c.transitions).toTransitions.map typed

theorem pairwise_map_typed [Host] (h : Increasing (ts.map departure)) :
    (ts.map typed).Pairwise Step.Commutes := by
  rw [List.pairwise_map]
  refine (List.pairwise_map.1 h).imp fun {t u} hlt e => ?_
  have hne : t.departure ≠ u.departure := fun heq => StrictLinear.irrefl _ (heq ▸ hlt)
  exact setTransition_comm hne _ _ e

theorem pairwise_typing [Host] (c : Config) : (typing c).Pairwise Step.Commutes := by
  have hfields : (typedFields c).Pairwise Step.Commutes := by
    simp only [typedFields, List.pairwise_cons, List.forall_mem_cons, List.not_mem_nil,
      false_imp_iff, implies_true, and_true, List.Pairwise.nil]
    exact ⟨⟨fun _ => rfl, fun _ => rfl, fun _ => rfl⟩, ⟨fun _ => rfl, fun _ => rfl⟩, fun _ => rfl⟩
  refine List.pairwise_append.2 ⟨hfields,
    pairwise_map_typed (Transition.normal_toTransitions _).departures, fun s hs s' hs' e => ?_⟩
  obtain ⟨t, -, rfl⟩ := List.mem_map.1 hs'
  simp only [typedFields, List.mem_cons, List.not_mem_nil, or_false] at hs
  rcases hs with rfl | rfl | rfl | rfl <;> rfl

theorem after_append [Host] (e : Editor) (steps steps' : List Step) :
    e.after (steps ++ steps') = (e.after steps).after steps' := List.foldl_append

theorem after_typedFields [Host] (hc : c.Typable) (e : Editor) : e.after (typedFields c) =
    { e with
      states := c.states
      alphabet := c.alphabet
      initialState := c.initialState
      acceptingStates := c.acceptingStates } := by
  change { e with
    states := Field.items (",".intercalate c.states)
    alphabet := Field.items (",".intercalate c.alphabet)
    initialState := Field.strip c.initialState
    acceptingStates := Field.items (",".intercalate c.acceptingStates) } = _
  rw [Field.items_intercalate_of_isItem hc.states, Field.items_intercalate_of_isItem hc.alphabet,
    hc.initialState, Field.items_intercalate_of_isItem hc.acceptingStates]

theorem after_map_typed [Host]
    (hts : ∀ t ∈ ts, t.nextStates ≠ [] ∧ ∀ p ∈ t.nextStates, Field.IsItem p)
    (e : Editor) : e.after (ts.map typed) =
      { e with
        transitions := ts.foldl
          (fun m t => m.put t.departure (Members.ofList t.nextStates)) e.transitions } := by
  induction ts generalizing e with
  | nil => rfl
  | cons t ts ih =>
    obtain ⟨⟨hne, hitems⟩, hts⟩ := List.forall_mem_cons.1 hts
    have hread : Field.items (",".intercalate t.nextStates) = t.nextStates :=
      Field.items_intercalate_of_isItem hitems
    have hstep : (e.step (typed t)).2 =
        { e with transitions := e.transitions.put t.departure (Members.ofList t.nextStates) } := by
      change e.setTransition t.state t.symbol (",".intercalate t.nextStates) = _
      rw [setTransition, hread]
      have hempty : t.nextStates.isEmpty = false := List.isEmpty_eq_false_iff.2 hne
      simp only [hempty, Bool.false_eq_true, if_false]
      rfl
    change (e.step (typed t)).2.after (ts.map typed) = _
    rw [hstep, ih hts]
    rfl

theorem after_typing [Host] (hc : c.Typable) (delimiter : String) :
    (fresh delimiter).after (typing c) = (fresh delimiter).loadConfig c := by
  have hreduced := TransitionMap.reduced_ofTransitions c.transitions
  have hnormal := Transition.normal_toTransitions (.ofTransitions c.transitions)
  have hitems : ∀ t ∈ (TransitionMap.ofTransitions c.transitions).toTransitions,
      t.nextStates ≠ [] ∧ ∀ p ∈ t.nextStates, Field.IsItem p := by
    refine fun t ht => ⟨hnormal.nonempty t ht, fun p hp => ?_⟩
    -- the destinations that the map lists were listed in the configuration
    obtain ⟨u, hu, -, -, hpu⟩ := Transition.denotes_normalForm.1 ⟨t, ht, rfl, rfl, hp⟩
    exact hc.nextStates u hu p hpu
  rw [typing, after_append, after_typedFields hc, after_map_typed hitems]
  exact congrArg
    (fun m => { (fresh delimiter).loadConfig c with transitions := m })
    (TransitionMap.foldl_put_toTransitions hreduced)

/-- In whatever order a configuration is typed into a fresh editor, the editor is the one that takes
the configuration over. It has the fields of the configuration and its transitions in normal form,
and it converts to the table of the configuration unless the labels that it holds are at fault. -/
theorem typed_eq_loaded [Host] (delimiter : String) (hc : c.Typable)
    (hsteps : steps.Perm (typing c)) :
    let e := (fresh delimiter).after steps
    (fresh delimiter).step (.loadDraft c.toDraft) = (.ok .nothing, e) ∧
    e.toConfig = { c with transitions := Transition.normalForm c.transitions } ∧
    e.step .convert = match e.toConfig.checkLabels delimiter with
      | .ok _ => (.ok (.table (c.determinize delimiter)),
          { e with table := c.determinize delimiter })
      | .error fault => (.error (.labels fault), e) := by
  have hcommutes : steps.Pairwise Step.Commutes :=
    (hsteps.pairwise_iff fun h => Std.Symm.symm _ _ h).2 (pairwise_typing c)
  have hloaded : (fresh delimiter).after steps = (fresh delimiter).loadConfig c :=
    (after_perm hsteps hcommutes _).trans (after_typing hc delimiter)
  intro e
  rw [show e = (fresh delimiter).loadConfig c from hloaded]
  refine ⟨?_, rfl, step_convert _⟩
  rw [step, run_loadDraft_toDraft]

def spacedLabels : Config where
  states := ["q 0", "é"]
  alphabet := ["a"]
  transitions := [⟨"q 0", "a", ["é", "é"]⟩, ⟨"é", " ,", ["é"]⟩, ⟨"q 0", "a", ["q 0"]⟩, ⟨"é", "a", []⟩]
  initialState := "é, q 0"
  acceptingStates := ["é"]

def typedBackwards : List Step :=
  [.setTransition "é" " ," "é", .setTransition "q 0" "a" "q 0,é", .setAcceptingStates "é",
    .setInitialState "é, q 0", .setAlphabet "a", .setStates "q 0,é"]

theorem typedBackwards_eq_loaded :
    spacedLabels.Typable ∧ typedBackwards.Perm (typing spacedLabels) ∧
      (fresh ", ").step (.loadDraft spacedLabels.toDraft) =
        (.ok .nothing, (fresh ", ").after typedBackwards) ∧
      (((fresh ", ").after typedBackwards).step .convert).1 =
        .ok (.table [⟨"q 0, é", true, [("a", "q 0, é")]⟩]) := by
  have htypable : spacedLabels.Typable :=
    ⟨by decide, by decide, by decide, by decide, by decide⟩
  have hperm : typedBackwards.Perm (typing spacedLabels) := by
    have hreverse : typedBackwards = (typing spacedLabels).reverse := by cbv
    exact hreverse ▸ List.reverse_perm _
  obtain ⟨hload, hconfig, hconvert⟩ := typed_eq_loaded ", " htypable hperm
  have hlabels : { spacedLabels with
      transitions := Transition.normalForm spacedLabels.transitions }.checkLabels ", " = .ok () := by
    cbv
  have htable : spacedLabels.determinize ", " = [⟨"q 0, é", true, [("a", "q 0, é")]⟩] := by cbv
  rw [hconfig, hlabels, htable] at hconvert
  exact ⟨htypable, hperm, hload, congrArg Prod.fst hconvert⟩

end Editor
end Determinizer
