import Determinizer.Dfa.Draft
import Determinizer.Proofs.Config.Draft
import Determinizer.Proofs.Config.Exchange

/-! What the check of the shape is for. The label check, the construction, the layout and the counts
of its table, and saving take the fields that they need without a check of their own. A value passes
the check of the shape just if its draft is the draft of a configuration, where a field of the wrong
kind is as good as none; so nothing that comes after it can come upon a field that it cannot use. -/

namespace Determinizer

variable {v : Json} {c : Config}

namespace Transition

def Draft.ofJson (v : Json) : Draft where
  state := (v.field? "state").bind Json.str?
  symbol := (v.field? "symbol").bind Json.str?
  nextStates := (v.field? "nextStates").bind Json.strings?

theorem draft_eq_toDraft_iff {t : Transition} : Draft.ofJson v = t.toDraft ↔ t.StandsIn v := by
  rw [Draft.ofJson, toDraft, Draft.mk.injEq]
  simp only [Option.bind_eq_some_iff, Json.str?_eq_some, Json.strings?_eq_some, exists_eq_right]
  cases v with
  | obj entries => simp [StandsIn, Json.field?]
  | _ => simp [StandsIn, Json.field?]

theorem map_draft_eq_iff {items : List Json} {ts : List Transition} :
    items.map Draft.ofJson = ts.map toDraft ↔
      List.Forall₂ (fun v t => StandsIn t v) items ts := by
  simp only [← draft_eq_toDraft_iff]
  rw [← List.forall₂_eq_eq_eq, List.forall₂_map_left_iff, List.forall₂_map_right_iff]

end Transition

namespace Row

theorem statistics_toDraft (t : Table) : Draft.statistics (t.map toDraft) = .ok t.statistics := by
  have htransitions := mapM_map_eq_ok (g := toDraft) (h := Row.transitions)
    (f := fun r : Draft String => require "transitions" r.transitions) (fun _ => rfl) t
  have haccepting := mapM_map_eq_ok (g := toDraft) (h := Row.accepting)
    (f := fun r : Draft String => require "isAccepting" r.accepting) (fun _ => rfl) t
  simp only [Draft.statistics, htransitions, haccepting, bind, Except.bind, pure, Except.pure,
    Table.statistics, List.length_map, List.countP_map, List.flatMap_def]
  rfl

end Row

namespace Config

def Draft.ofJson (v : Json) : Draft where
  states := (v.field? "states").bind Json.strings?
  alphabet := (v.field? "alphabet").bind Json.strings?
  transitions := (v.field? "transitions").bind fun
    | .arr items => some (items.map Transition.Draft.ofJson)
    | _ => none
  initialState := (v.field? "initialState").bind Json.str?
  acceptingStates := (v.field? "acceptingStates").bind Json.strings?

theorem draft_eq_toDraft_iff : Draft.ofJson v = c.toDraft ↔ ofJson v = .ok c := by
  cases v with
  | obj entries =>
    rw [ofJson_obj_eq_ok_iff, Draft.ofJson, toDraft, Draft.mk.injEq]
    simp only [Json.field?, Option.bind_eq_some_iff, Json.str?_eq_some, Json.strings?_eq_some,
      exists_eq_right]
    have htransitions : ∀ w : Json, (match w with
        | .arr items => some (items.map Transition.Draft.ofJson)
        | _ => none) = some (c.transitions.map Transition.toDraft) ↔
          ∃ items, w = .arr items ∧
            List.Forall₂ (fun v t => Transition.StandsIn t v) items c.transitions := by
      intro w
      cases w with
      | arr items => simp [Transition.map_draft_eq_iff]
      | _ => simp
    simp only [htransitions]
    constructor
    · rintro ⟨hstates, halphabet, ⟨w, hw, items, rfl, hitems⟩, hinitial, haccepting⟩
      exact ⟨hstates, halphabet, ⟨items, hw, hitems⟩, hinitial, haccepting⟩
    · rintro ⟨hstates, halphabet, ⟨items, hw, hitems⟩, hinitial, haccepting⟩
      exact ⟨hstates, halphabet, ⟨_, hw, items, rfl, hitems⟩, hinitial, haccepting⟩
  | _ => exact iff_of_false nofun nofun

/-- What is taken from a value once its shape was checked is there, and nothing fails for want of a
field: the fields themselves, the labels, the transitions for the map, the table, its cells and its
counts, and the text that is saved. -/
structure Served (c : Config) (delimiter : String) (v : Json) : Prop where
  fields : (Draft.ofJson v).complete = .ok c
  labels : (Draft.ofJson v).checkLabels delimiter = .ok (c.checkLabels delimiter)
  transitions : ∃ ts, (Draft.ofJson v).transitions = some ts ∧
    ts.mapM (·.complete) = .ok c.transitions
  table : (Draft.ofJson v).determinize delimiter = .ok (c.determinize delimiter)
  cells : ((c.determinize delimiter).map Row.toDraft).mapM (·.cells wording c.alphabet) =
    .ok ((c.determinize delimiter).cells c.alphabet)
  statistics : Row.Draft.statistics ((c.determinize delimiter).map Row.toDraft) =
    .ok (c.determinize delimiter).statistics
  text : ∃ entries, v = .obj entries ∧
    dumpFields entries = .ok (Json.obj (project entries)).indented

theorem served_of_ofJson (delimiter : String) (h : ofJson v = .ok c) : c.Served delimiter v := by
  have hdraft := draft_eq_toDraft_iff.2 h
  refine ⟨?_, ?_, ?_, ?_, ?_, Row.statistics_toDraft _, ?_⟩
  · rw [hdraft, complete_toDraft]
  · rw [hdraft, Draft.checkLabels, labels_toDraft]
    rfl
  · rw [hdraft]
    exact ⟨_, rfl, by simpa using mapM_map_eq_ok Transition.complete_toDraft c.transitions⟩
  · rw [hdraft, Draft.determinize, complete_toDraft]
    rfl
  · exact mapM_map_eq_ok (fun r => Row.cells_toDraft r c.alphabet) _
  · cases v with
    | obj entries => exact ⟨entries, rfl, dumpFields_eq (ofJson_obj_eq_ok_iff.1 h)⟩
    | _ => cases h

end Config
end Determinizer
