import Determinizer.Proofs.Editor.Runs

/-! The table of an editor is a snapshot. It is the table of the automaton that the editor held when
it was last converted, however the fields have been edited since, until a load completes. -/

namespace Determinizer.Editor

variable {e : Editor} {r : Record} {records : List Record} {s : Step}

def Record.completesLoad [Host] (r : Record) : Bool := r.step.isLoad && r.succeeds

def Record.converts [Host] (r : Record) : Bool := r.step.isConvert && r.succeeds

/-- The last conversion that succeeded, as far as no load has completed since. -/
def lastConversion? [Host] (records : List Record) : Option Record :=
  (records.reverse.takeWhile (!·.completesLoad)).find? (·.converts)

theorem lastConversion?_concat [Host] : lastConversion? (records ++ [r]) =
    if r.completesLoad then none else if r.converts then some r else lastConversion? records := by
  rw [lastConversion?, List.reverse_concat, List.takeWhile_cons]
  cases r.completesLoad with
  | true => rfl
  | false =>
    simp only [Bool.not_false, if_true, List.find?_cons]
    cases r.converts <;> rfl

def snapshot [Host] (delimiter : String) (records : List Record) : Table :=
  match lastConversion? records with
  | none => []
  | some r => r.before.toNfa.determinize delimiter

theorem snapshot_concat [Host] (delimiter : String) : snapshot delimiter (records ++ [r]) =
    if r.completesLoad then []
    else if r.converts then r.before.toNfa.determinize delimiter
    else snapshot delimiter records := by
  rw [snapshot, lastConversion?_concat]
  cases r.completesLoad with
  | true => rfl
  | false => cases r.converts <;> rfl

theorem table_step [Host] {delimiter : String} (hdelimiter : e.delimiter = delimiter)
    (htable : e.table = snapshot delimiter records) :
    (e.step s).2.table = snapshot delimiter (records ++ [⟨e, s⟩]) := by
  rw [snapshot_concat, Record.completesLoad, Record.converts, Record.succeeds, Record.outcome,
    (effect_step e s).table]
  -- what fails is neither a completed load nor a conversion, so both sides stay as they are
  cases (e.step s).1.isOk with
  | false => simpa only [Bool.and_false, Bool.false_eq_true, if_false] using htable
  | true =>
    simp only [Bool.and_true, if_true, Step.tableAfter]
    rw [hdelimiter, htable]

theorem table_after [Host] (delimiter : String) (steps : List Step) :
    ((fresh delimiter).after steps).table =
      snapshot delimiter ((fresh delimiter).trace steps) := by
  induction steps using List.reverseRecOn with
  | nil => rfl
  | append_singleton steps s ih =>
    rw [after_concat, trace_concat]
    exact table_step (delimiter_after _ steps) ih

theorem table_step_of_not_replaced [Host] (e : Editor) (hconvert : ¬ s.isConvert)
    (hload : ¬ (s.isLoad ∧ (e.step s).1.isOk)) : (e.step s).2.table = e.table := by
  rw [(effect_step e s).table]
  cases hok : (e.step s).1.isOk with
  | false => rfl
  | true =>
    have hnoload : ¬ s.isLoad := fun h => hload ⟨h, hok⟩
    rw [if_pos rfl, Step.tableAfter, if_neg hnoload, if_neg hconvert]

/-- After any script from a fresh editor, failed steps included, the table is that of the automaton
held at the last successful conversion, or empty when there was none since the last completed load.
A conversion changes nothing when the labels are at fault and nothing but the table otherwise; no
step changes the table besides a conversion and a load that completes. -/
theorem table_is_snapshot [Host] (delimiter : String) (steps : List Step) :
    let e := (fresh delimiter).after steps
    e.table = snapshot delimiter ((fresh delimiter).trace steps) ∧
    ((∃ fault, e.toConfig.checkLabels delimiter = .error fault ∧
        e.step .convert = (.error (.labels fault), e)) ∨
      e.toConfig.checkLabels delimiter = .ok () ∧
        e.step .convert = (.ok (.table (e.toNfa.determinize delimiter)),
          { e with table := e.toNfa.determinize delimiter })) ∧
    ∀ s, ¬ s.isConvert → ¬ (s.isLoad ∧ (e.step s).1.isOk) → (e.step s).2.table = e.table := by
  intro e
  have hdelimiter : e.delimiter = delimiter := delimiter_after _ steps
  refine ⟨table_after delimiter steps, ?_, fun s => table_step_of_not_replaced e⟩
  rw [← hdelimiter]
  exact e.step_convert_cases

end Determinizer.Editor
