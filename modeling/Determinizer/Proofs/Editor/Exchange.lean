import Determinizer.Proofs.Editor.Runs

/-! One editor's export in another editor. What an editor holds can always be written, and its map
comes back from the written transitions, since no entry of it is empty. Both editors check the same
labels: the export is refused where the conversion is, and for the same reason. -/

namespace Determinizer.Editor

variable {e e₂ : Editor} {fault : LabelFault}

theorem step_exportText [Host] (e : Editor) :
    e.step .exportText = (.ok (.text e.toConfig.dump), e) := rfl

theorem document?_dump [Host] (c : Config) : (Step.loadText c.dump).document? = some (.ok c) :=
  congrArg some c.load_dump

theorem loadConfig_toConfig [Host] (hdelimiter : e₂.delimiter = e.delimiter)
    (hreduced : e.transitions.Reduced) : e₂.loadConfig e.toConfig = { e with table := [] } := by
  have hmap : TransitionMap.ofTransitions e.toConfig.transitions = e.transitions :=
    TransitionMap.ofTransitions_toTransitions hreduced
  rw [loadConfig, hmap, hdelimiter]
  rfl

theorem step_convert_table [Host] (e : Editor) (table : Table) :
    { e with table }.step .convert = match e.toConfig.checkLabels e.delimiter with
      | .ok _ => (.ok (.table (e.toNfa.determinize e.delimiter)),
          { e with table := e.toNfa.determinize e.delimiter })
      | .error fault => (.error (.labels fault), { e with table }) :=
  step_convert { e with table }

theorem run_import_accepted [Host] (hdelimiter : e₂.delimiter = e.delimiter)
    (hreduced : e.transitions.Reduced) (hlabels : e.toConfig.checkLabels e.delimiter = .ok ()) :
    e₂.run [.loadText e.toConfig.dump, .convert] =
      [(.ok (.config e.toConfig), { e with table := [] }),
        (.ok (.table (e.toNfa.determinize e.delimiter)),
          { e with table := e.toNfa.determinize e.delimiter })] := by
  have hload : e₂.step (.loadText e.toConfig.dump) =
      (.ok (.config e.toConfig), { e with table := [] }) := by
    rw [step_document_accepted (document?_dump _) (hdelimiter ▸ hlabels),
      loadConfig_toConfig hdelimiter hreduced]
  have hconvert := e.step_convert_table []
  rw [hlabels] at hconvert
  simp only [run, hload, hconvert]

theorem step_import_mislabelled [Host] (hdelimiter : e₂.delimiter = e.delimiter)
    (hlabels : e.toConfig.checkLabels e.delimiter = .error fault) :
    e₂.step (.loadText e.toConfig.dump) = (.error (.labels fault), e₂) :=
  step_document_mislabelled (document?_dump _) (hdelimiter ▸ hlabels)

/-- Of two editors with one delimiter, each after any script, the second takes over what the first
exports just when the first can convert. It then holds what the first holds, without a table, and
converts to the same table. Otherwise it gives the reason that the first gives, and stays as it is.
-/
theorem export_reproduces [Host] (delimiter : String) (steps steps' : List Step) :
    let e := (fresh delimiter).after steps
    let e₂ := (fresh delimiter).after steps'
    ∃ text, e.step .exportText = (.ok (.text text), e) ∧
      ((∃ table, e.step .convert = (.ok (.table table), { e with table }) ∧
          e₂.run [.loadText text, .convert] =
            [(.ok (.config e.toConfig), { e with table := [] }),
              (.ok (.table table), { e with table })]) ∨
        ∃ fault, e.step .convert = (.error (.labels fault), e) ∧
          e₂.step (.loadText text) = (.error (.labels fault), e₂)) := by
  intro e e₂
  have hdelimiter : e₂.delimiter = e.delimiter :=
    (delimiter_after _ steps').trans (delimiter_after _ steps).symm
  have hreduced : e.transitions.Reduced := reduced_after TransitionMap.reduced_empty steps
  refine ⟨_, e.step_exportText, ?_⟩
  rcases e.step_convert_cases with ⟨fault, hlabels, hconvert⟩ | ⟨hlabels, hconvert⟩
  · exact .inr ⟨fault, hconvert, step_import_mislabelled hdelimiter hlabels⟩
  · exact .inl ⟨_, hconvert, run_import_accepted hdelimiter hreduced hlabels⟩

end Determinizer.Editor
