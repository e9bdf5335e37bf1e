import Determinizer.Editor.Basic
import Determinizer.Proofs.Config.Draft

/-! Taking over a draft. Its fields are assigned one after the other, so a draft with all its fields
replaces what the editor held, and one that lacks a field leaves what was assigned before. The table
goes with the last assignment: a load that breaks off keeps it. -/

namespace Determinizer

structure Config.Draft.Reaches (d : Config.Draft) (ts : List Transition) : Prop where
  states : ∃ l, d.states = some l
  alphabet : ∃ l, d.alphabet = some l
  transitions : d.transitions = some (ts.map Transition.toDraft)

theorem Config.Draft.Reaches.unique {d : Config.Draft} {ts ts' : List Transition}
    (h : d.Reaches ts) (h' : d.Reaches ts') : ts = ts' := by
  have heq := Option.some.inj (h.transitions.symm.trans h'.transitions)
  have hcomplete := Transition.Draft.mapM_complete_eq_ok_iff.2 heq
  exact Except.ok.inj ((Transition.Draft.mapM_complete_eq_ok_iff.2 rfl).symm.trans hcomplete)

namespace Editor

variable {ε α β : Type} {e : Editor} {d : Config.Draft} {c : Config} {r : Except ε α}
  {g : Editor → Editor} {Q : Except ε β → Editor → Prop}

/-- What holds of the outcome of a program and of the editor that it leaves, also where it breaks
off. -/
def Leaves (m : ExceptT ε (StateM Editor) β) (e : Editor) (Q : Except ε β → Editor → Prop) : Prop :=
  Q (m.run.run e).1 (m.run.run e).2

theorem run_settled (r : Except ε α) : (settled r).run.run e = (r, e) := rfl

theorem run_modify (g : Editor → Editor) :
    (modify g : ExceptT ε (StateM Editor) Unit).run.run e = (.ok (), g e) := rfl

theorem run_bind (m : ExceptT ε (StateM Editor) α) (f : α → ExceptT ε (StateM Editor) β) :
    (m >>= f).run.run e = match m.run.run e with
      | (.ok a, e') => (f a).run.run e'
      | (.error error, e') => (.error error, e') := by
  have hbind : (m >>= f).run.run e = (ExceptT.bindCont f (m.run.run e).1).run (m.run.run e).2 := rfl
  rw [hbind]
  rcases m.run.run e with ⟨_ | _, e'⟩ <;> rfl

theorem leaves_settled_bind {f : α → ExceptT ε (StateM Editor) β}
    (herror : ∀ error, r = .error error → Q (.error error) e)
    (hok : ∀ a, r = .ok a → Leaves (f a) e Q) : Leaves (settled r >>= f) e Q := by
  rw [Leaves, run_bind, run_settled]
  cases r with
  | error error => exact herror error rfl
  | ok a => exact hok a rfl

theorem leaves_modify_bind {f : Unit → ExceptT ε (StateM Editor) β} (h : Leaves (f ()) (g e) Q) :
    Leaves (modify g >>= f) e Q := by
  rw [Leaves, run_bind, run_modify]
  exact h

theorem leaves_modify {Q : Except ε Unit → Editor → Prop} (h : Q (.ok ()) (g e)) :
    Leaves (modify g) e Q := h

theorem leaves_require_bind {name : String} {o : Option α}
    {f : α → ExceptT MissingField (StateM Editor) β} {Q : Except MissingField β → Editor → Prop}
    (herror : ∀ error, (∀ a, o ≠ some a) → Q (.error error) e)
    (hok : ∀ a, o = some a → Leaves (f a) e Q) : Leaves (settled (require name o) >>= f) e Q := by
  refine leaves_settled_bind (fun error h => herror error ?_) fun a h =>
    hok a (require_eq_ok_iff.1 h)
  rintro a rfl
  cases h

theorem leaves_loadDraft (d : Config.Draft) (e : Editor) :
    Leaves (loadDraft d) e fun r e' =>
      e'.delimiter = e.delimiter ∧
      (e'.transitions = e.transitions ∧ (∀ ts, ¬ d.Reaches ts) ∨
        ∃ ts, d.Reaches ts ∧ e'.transitions = .ofTransitions ts) ∧
      e'.table = match r with
        | .ok _ => []
        | .error _ => e.table := by
  unfold loadDraft
  refine leaves_require_bind (fun _ hnone => ⟨rfl, .inl ⟨rfl, fun ts hts => ?_⟩, rfl⟩)
    fun states hstates => leaves_modify_bind ?_
  · exact hts.states.elim hnone
  refine leaves_require_bind (fun _ hnone => ⟨rfl, .inl ⟨rfl, fun ts hts => ?_⟩, rfl⟩)
    fun alphabet halphabet => leaves_modify_bind ?_
  · exact hts.alphabet.elim hnone
  refine leaves_require_bind (fun _ hnone => ⟨rfl, .inl ⟨rfl, fun ts hts => ?_⟩, rfl⟩)
    fun written hwritten => ?_
  · exact hnone _ hts.transitions
  refine leaves_settled_bind (fun _ hfail => ⟨rfl, .inl ⟨rfl, fun ts hts => ?_⟩, rfl⟩)
    fun ts hts => leaves_modify_bind ?_
  · cases hwritten.symm.trans hts.transitions
    cases hfail.symm.trans (Transition.Draft.mapM_complete_eq_ok_iff.2 rfl)
  -- from here on the transitions are those of the draft, whether or not the load ends
  have hreaches : d.Reaches ts := by
    refine ⟨⟨states, hstates⟩, ⟨alphabet, halphabet⟩, ?_⟩
    rw [hwritten, Transition.Draft.mapM_complete_eq_ok_iff.1 hts]
  refine leaves_settled_bind (fun _ _ => ⟨rfl, .inr ⟨ts, hreaches, rfl⟩, rfl⟩) fun _ _ =>
    leaves_modify_bind ?_
  refine leaves_settled_bind (fun _ _ => ⟨rfl, .inr ⟨ts, hreaches, rfl⟩, rfl⟩) fun _ _ => ?_
  exact leaves_modify ⟨rfl, .inr ⟨ts, hreaches, rfl⟩, rfl⟩

def loadConfig (e : Editor) (c : Config) : Editor :=
  { e with
    states := c.states
    alphabet := c.alphabet
    transitions := .ofTransitions c.transitions
    initialState := c.initialState
    acceptingStates := c.acceptingStates
    table := [] }

theorem run_loadDraft_of_complete (h : d.complete = .ok c) :
    (loadDraft d).run.run e = (.ok (), e.loadConfig c) := by
  simp only [Config.Draft.complete, bind_eq_ok] at h
  obtain ⟨states, hstates, alphabet, halphabet, written, hwritten, ts, hts, initialState, hinitial,
    acceptingStates, haccepting, h⟩ := h
  cases h
  simp only [loadDraft, hstates, halphabet, hwritten, hts, hinitial, haccepting, run_bind, run_settled,
    run_modify]
  rfl

theorem run_loadDraft_toDraft (c : Config) (e : Editor) :
    (loadDraft c.toDraft).run.run e = (.ok (), e.loadConfig c) :=
  run_loadDraft_of_complete (Config.complete_toDraft c)

end Editor
end Determinizer
