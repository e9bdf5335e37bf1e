import Determinizer.Config.Draft
import Determinizer.Proofs.Outcome

/-! Drafts that have all their fields. They are the drafts of configurations, and what is read from
one of these is what stands in the configuration. -/

namespace Determinizer

theorem Transition.Draft.complete_eq_ok_iff {w : Transition.Draft} {t : Transition} :
    w.complete = .ok t ↔ w = t.toDraft := by
  simp only [complete, bind_eq_ok, require_eq_ok_iff]
  constructor
  · rintro ⟨state, hstate, symbol, hsymbol, nextStates, hnext, h⟩
    cases h
    rw [toDraft, ← hstate, ← hsymbol, ← hnext]
  · rintro rfl
    exact ⟨_, rfl, _, rfl, _, rfl, rfl⟩

theorem Transition.Draft.mapM_complete_eq_ok_iff {written : List Transition.Draft}
    {ts : List Transition} : written.mapM (·.complete) = .ok ts ↔ written = ts.map toDraft := by
  rw [mapM_eq_ok, ← List.forall₂_eq_eq_eq, List.forall₂_map_right_iff]
  simp only [complete_eq_ok_iff]

namespace Config

@[simp] theorem complete_toDraft (c : Config) : c.toDraft.complete = .ok c := by
  have htransitions := Transition.Draft.mapM_complete_eq_ok_iff.2 (Eq.refl (c.transitions.map _))
  simp only [Draft.complete, toDraft, require, bind, Except.bind]
  rw [htransitions]
  rfl

@[simp] theorem labels_toDraft (c : Config) : c.toDraft.labels = .ok c.labels := by
  have htransitions := mapM_map_eq_ok Transition.labels_toDraft c.transitions
  simp only [Draft.labels, toDraft, require, bind, Except.bind]
  rw [htransitions]
  rfl

end Config
end Determinizer
