import Determinizer.Proofs.Editor.Load
import Determinizer.Proofs.Nfa.Reduced

/-! Runs of an editor: the editor that a script leaves, and the record of what was done on the way.
What a single step does to the delimiter, the map and the table is said once for all steps. No step
changes the delimiter, and none leaves an entry without destinations in the map. The table changes
where a conversion succeeds or a load completes, and there alone. -/

namespace Determinizer.Editor

variable {e : Editor} {s : Step} {steps : List Step}

def after [Host] (e : Editor) (steps : List Step) : Editor :=
  steps.foldl (fun e s => (e.step s).2) e

theorem after_concat [Host] (e : Editor) (steps : List Step) (s : Step) :
    e.after (steps ++ [s]) = ((e.after steps).step s).2 := List.foldl_concat ..

theorem after_induction [Host] {P : Editor → Prop} (he : P e)
    (hstep : ∀ e s, P e → P (e.step s).2) (steps : List Step) : P (e.after steps) := by
  induction steps using List.reverseRecOn with
  | nil => exact he
  | append_singleton steps s ih =>
    rw [after_concat]
    exact hstep _ s ih

def Step.isLoad : Step → Bool
  | .loadDraft _ | .loadText _ | .loadBytes _ => true
  | _ => false

def Step.isConvert : Step → Bool
  | .convert => true
  | _ => false

structure Record where
  before : Editor
  step : Step

def Record.outcome [Host] (r : Record) : Except EditorError Reply × Editor := r.before.step r.step

def Record.succeeds [Host] (r : Record) : Bool := r.outcome.1.isOk

def trace [Host] (e : Editor) : List Step → List Record
  | [] => []
  | s :: steps => ⟨e, s⟩ :: (e.step s).2.trace steps

theorem trace_concat [Host] (e : Editor) (steps : List Step) (s : Step) :
    e.trace (steps ++ [s]) = e.trace steps ++ [⟨e.after steps, s⟩] := by
  induction steps generalizing e with
  | nil => rfl
  | cons s' steps ih => exact congrArg (⟨e, s'⟩ :: ·) (ih _)

theorem step_convert [Host] (e : Editor) :
    e.step .convert = match e.toConfig.checkLabels e.delimiter with
    | .ok _ => (.ok (.table (e.toNfa.determinize e.delimiter)),
        { e with table := e.toNfa.determinize e.delimiter })
    | .error fault => (.error (.labels fault), e) := by
  rw [step, convert]
  cases e.toConfig.checkLabels e.delimiter <;> rfl

theorem step_convert_cases [Host] (e : Editor) :
    (∃ fault, e.toConfig.checkLabels e.delimiter = .error fault ∧
      e.step .convert = (.error (.labels fault), e)) ∨
    e.toConfig.checkLabels e.delimiter = .ok () ∧
      e.step .convert = (.ok (.table (e.toNfa.determinize e.delimiter)),
        { e with table := e.toNfa.determinize e.delimiter }) := by
  rw [step_convert]
  cases e.toConfig.checkLabels e.delimiter with
  | error fault => exact .inl ⟨fault, rfl, rfl⟩
  | ok _ => exact .inr ⟨rfl, rfl⟩

def Step.tableAfter (s : Step) (e : Editor) : Table :=
  if s.isLoad then [] else if s.isConvert then e.toNfa.determinize e.delimiter else e.table

structure Effect (e : Editor) (s : Step) (outcome : Except EditorError Reply × Editor) : Prop where
  delimiter : outcome.2.delimiter = e.delimiter
  reduced : e.transitions.Reduced → outcome.2.transitions.Reduced
  table : outcome.2.table = if outcome.1.isOk then s.tableAfter e else e.table

theorem effect_error (e : Editor) (s : Step) (error : EditorError) : Effect e s (.error error, e) :=
  ⟨rfl, id, rfl⟩

theorem effect_convert [Host] (e : Editor) : Effect e .convert (e.step .convert) := by
  rcases e.step_convert_cases with ⟨fault, -, h⟩ | ⟨-, h⟩
  · rw [h]
    exact effect_error e _ (.labels fault)
  · rw [h]
    exact ⟨rfl, id, rfl⟩

theorem effect_document [Host] (e : Editor) {loaded : Except LoadError Config}
    (hs : s.document? = some loaded) (hload : s.isLoad) : Effect e s (e.step s) := by
  rcases e.step_document_cases hs with ⟨error, h⟩ | ⟨c, h⟩
  · rw [h]
    exact effect_error e s error
  · rw [h]
    refine ⟨rfl, fun _ => TransitionMap.reduced_ofTransitions _, ?_⟩
    exact (if_pos hload).symm

theorem snd_step_loadDraft [Host] (e : Editor) (d : Config.Draft) :
    (e.step (.loadDraft d)).2 = ((loadDraft d).run.run e).2 := by
  rw [step]
  rcases (loadDraft d).run.run e with ⟨_ | _, e'⟩ <;> rfl

theorem effect_loadDraft [Host] (e : Editor) (d : Config.Draft) :
    Effect e (.loadDraft d) (e.step (.loadDraft d)) := by
  obtain ⟨hdelimiter, htransitions, htable⟩ := leaves_loadDraft d e
  rw [step]
  generalize (loadDraft d).run.run e = outcome at *
  obtain ⟨r, e'⟩ := outcome
  -- a load that breaks off may have replaced the transitions all the same
  have hreduced : e.transitions.Reduced → e'.transitions.Reduced := by
    intro h
    rcases htransitions with ⟨hkept, -⟩ | ⟨ts, -, hts⟩
    · exact hkept ▸ h
    · exact hts ▸ TransitionMap.reduced_ofTransitions ts
  cases r <;> exact ⟨hdelimiter, hreduced, htable⟩

theorem reduced_setTransition (state symbol text : String) (h : e.transitions.Reduced) :
    (e.setTransition state symbol text).transitions.Reduced := by
  unfold setTransition
  cases hitems : Field.items text with
  | nil => exact h.filter _
  | cons item items =>
    refine h.put fun hempty => ?_
    have hmem : item ∈ Members.ofList (item :: items) := Members.mem_ofList.2 List.mem_cons_self
    rw [hempty] at hmem
    exact Members.not_mem_empty item hmem

theorem effect_step [Host] (e : Editor) (s : Step) : Effect e s (e.step s) := by
  cases s with
  | setTransition state symbol text => exact ⟨rfl, reduced_setTransition state symbol text, rfl⟩
  | convert => exact effect_convert e
  | loadDraft d => exact effect_loadDraft e d
  | loadText text => exact effect_document e rfl rfl
  | loadBytes bytes => exact effect_document e rfl rfl
  | checkLabels d =>
    rw [step]
    cases e.checkLabels d <;> exact ⟨rfl, id, rfl⟩
  | _ => exact ⟨rfl, id, rfl⟩

theorem delimiter_after [Host] (e : Editor) (steps : List Step) :
    (e.after steps).delimiter = e.delimiter :=
  after_induction (P := fun e' => e'.delimiter = e.delimiter) rfl
    (fun e' s h => (effect_step e' s).delimiter.trans h) steps

theorem reduced_after [Host] (h : e.transitions.Reduced) (steps : List Step) :
    (e.after steps).transitions.Reduced :=
  after_induction h (fun e' s => (effect_step e' s).reduced) steps

end Determinizer.Editor
