import Determinizer.Config.Document
import Determinizer.Proofs.Encoding.Utf8
import Determinizer.Proofs.Json.RoundTrip
import Determinizer.Proofs.Outcome

/-! Configurations and their documents. What an object makes as a configuration stands in five of
its fields, which are written and read back; whatever other fields hold does not matter. -/

namespace Determinizer

open Json (Fits mapFloats)

variable {g : Float → Float}

namespace Transition

def StandsIn (t : Transition) (v : Json) : Prop :=
  ∃ entries, v = .obj entries ∧ entries.lookup "state" = some (.str t.state) ∧
    entries.lookup "symbol" = some (.str t.symbol) ∧
    entries.lookup "nextStates" = some (.strings t.nextStates)

variable {t : Transition} {v : Json}

theorem ofJson_eq_ok_iff {index : Nat} : ofJson index v = .ok t ↔ t.StandsIn v := by
  constructor
  · intro h
    cases v with
    | obj entries =>
      simp only [ofJson] at h
      split at h
      · cases h
      next state hstate =>
      split at h
      · cases h
      next symbol hsymbol =>
      split at h
      · cases h
      next nextStates hnext =>
      cases h
      simp only [Option.bind_eq_some_iff, Json.str?_eq_some, Json.strings?_eq_some,
        exists_eq_right] at hstate hsymbol hnext
      exact ⟨entries, rfl, hstate, hsymbol, hnext⟩
    | _ => simp [ofJson] at h
  · rintro ⟨entries, rfl, hstate, hsymbol, hnext⟩
    have hstrings := Json.strings?_strings t.nextStates
    simp [ofJson, hstate, hsymbol, hnext, hstrings, Json.str?]

theorem standsIn_toJson (t : Transition) : t.StandsIn t.toJson := ⟨_, rfl, rfl, rfl, rfl⟩

theorem StandsIn.mapFloats (h : t.StandsIn v) : t.StandsIn (v.mapFloats g) := by
  obtain ⟨entries, rfl, hstate, hsymbol, hnext⟩ := h
  refine ⟨_, Json.mapFloats_obj g entries, ?_, ?_, ?_⟩
  · simp [Json.lookup_mapFloats, hstate]
  · simp [Json.lookup_mapFloats, hsymbol]
  · simp [Json.lookup_mapFloats, hnext]

theorem fits_toJson (depth : Nat) (t : Transition) : Fits (depth + 2) t.toJson := by
  simp [toJson]

theorem mapFloats_toJson (t : Transition) : t.toJson.mapFloats g = t.toJson := by
  simp [toJson]

theorem mapM_ofJson_eq_ok_iff {items : List Json} {ts : List Transition} :
    items.zipIdx.mapM (fun (v, index) => ofJson index v) = .ok ts ↔
      List.Forall₂ (fun v t => StandsIn t v) items ts := by
  have hindexed : ∀ k, List.Forall₂ (fun e t => ofJson e.2 e.1 = .ok t) (items.zipIdx k) ts ↔
      List.Forall₂ (fun v t => StandsIn t v) items ts := by
    induction items generalizing ts with
    | nil => simp
    | cons v items ih =>
      intro k
      simp only [ofJson_eq_ok_iff] at ih ⊢
      simp only [List.zipIdx_cons, List.forall₂_cons_left_iff, ih]
  exact mapM_eq_ok.trans (hindexed 0)

end Transition

namespace Config

structure StandsIn (c : Config) (entries : List (String × Json)) : Prop where
  states : entries.lookup "states" = some (.strings c.states)
  alphabet : entries.lookup "alphabet" = some (.strings c.alphabet)
  transitions : ∃ items, entries.lookup "transitions" = some (.arr items) ∧
    List.Forall₂ (fun v t => Transition.StandsIn t v) items c.transitions
  initialState : entries.lookup "initialState" = some (.str c.initialState)
  acceptingStates : entries.lookup "acceptingStates" = some (.strings c.acceptingStates)

variable {entries entries' fields : List (String × Json)} {c : Config}

theorem StandsIn.lookup_isSome (h : c.StandsIn entries) {name : String} (hname : name ∈ fieldNames) :
    (entries.lookup name).isSome := by
  obtain ⟨items, htransitions, -⟩ := h.transitions
  simp only [fieldNames, List.mem_cons, List.not_mem_nil, or_false] at hname
  rcases hname with rfl | rfl | rfl | rfl | rfl
  · simp [h.states]
  · simp [h.alphabet]
  · simp [htransitions]
  · simp [h.initialState]
  · simp [h.acceptingStates]

theorem StandsIn.congr (h : c.StandsIn entries)
    (hsame : ∀ name ∈ fieldNames, entries'.lookup name = entries.lookup name) :
    c.StandsIn entries' where
  states := (hsame _ (by simp [fieldNames])).trans h.states
  alphabet := (hsame _ (by simp [fieldNames])).trans h.alphabet
  transitions := by
    rw [hsame _ (by simp [fieldNames])]
    exact h.transitions
  initialState := (hsame _ (by simp [fieldNames])).trans h.initialState
  acceptingStates := (hsame _ (by simp [fieldNames])).trans h.acceptingStates

theorem StandsIn.mapFloats (h : c.StandsIn entries) :
    c.StandsIn (entries.map fun e => (e.1, e.2.mapFloats g)) where
  states := by simp [Json.lookup_mapFloats, h.states]
  alphabet := by simp [Json.lookup_mapFloats, h.alphabet]
  transitions := by
    obtain ⟨items, hitems, htransitions⟩ := h.transitions
    refine ⟨items.map (Json.mapFloats g), by simp [Json.lookup_mapFloats, hitems], ?_⟩
    rw [List.forall₂_map_left_iff]
    exact htransitions.imp fun _ _ => Transition.StandsIn.mapFloats
  initialState := by simp [Json.lookup_mapFloats, h.initialState]
  acceptingStates := by simp [Json.lookup_mapFloats, h.acceptingStates]

theorem stringsField_eq_ok_iff {name : String} {l : List String} :
    stringsField entries name = .ok l ↔ entries.lookup name = some (.strings l) := by
  have hfield : (entries.lookup name).bind Json.strings? = some l ↔
      entries.lookup name = some (.strings l) := by
    simp only [Option.bind_eq_some_iff, Json.strings?_eq_some, exists_eq_right]
  rw [← hfield]
  unfold stringsField
  split
  · next h => simp [h]
  · next h => simp [h]

theorem initialField_eq_ok_iff {s : String} :
    initialField entries = .ok s ↔ entries.lookup "initialState" = some (.str s) := by
  have hfield : (entries.lookup "initialState").bind Json.str? = some s ↔
      entries.lookup "initialState" = some (.str s) := by
    simp only [Option.bind_eq_some_iff, Json.str?_eq_some, exists_eq_right]
  rw [← hfield]
  unfold initialField
  split
  · next h => simp [h]
  · next h => simp [h]

theorem transitionsField_eq_ok_iff {ts : List Transition} :
    transitionsField entries = .ok ts ↔ ∃ items, entries.lookup "transitions" = some (.arr items) ∧
      List.Forall₂ (fun v t => Transition.StandsIn t v) items ts := by
  unfold transitionsField
  split
  · next items h =>
    rw [Transition.mapM_ofJson_eq_ok_iff, h]
    simp
  · next h =>
    constructor
    · intro h'
      cases h'
    · rintro ⟨items, hitems, -⟩
      exact absurd hitems (h items)

theorem ofJson_obj_eq_ok_iff : ofJson (.obj entries) = .ok c ↔ c.StandsIn entries := by
  constructor
  · intro h
    simp only [ofJson] at h
    split at h
    · cases h
    · simp only [bind_eq_ok, stringsField_eq_ok_iff, initialField_eq_ok_iff,
        transitionsField_eq_ok_iff] at h
      obtain ⟨states, hstates, alphabet, halphabet, initialState, hinitial, acceptingStates,
        haccepting, transitions, htransitions, h⟩ := h
      cases h
      exact ⟨hstates, halphabet, htransitions, hinitial, haccepting⟩
  · intro h
    have hfound : fieldNames.find? (fun name => (entries.lookup name).isNone) = none := by
      refine List.find?_eq_none.2 fun name hname => ?_
      simpa [Option.isSome_iff_ne_none] using h.lookup_isSome hname
    rw [ofJson, hfound]
    simp only [bind_eq_ok, stringsField_eq_ok_iff, initialField_eq_ok_iff,
      transitionsField_eq_ok_iff]
    exact ⟨_, h.states, _, h.alphabet, _, h.initialState, _, h.acceptingStates, _, h.transitions,
      rfl⟩

theorem standsIn_toJson (c : Config) :
    ∃ entries, c.toJson = .obj entries ∧ c.StandsIn entries := by
  refine ⟨_, rfl, rfl, rfl, ⟨_, rfl, ?_⟩, rfl, rfl⟩
  rw [List.forall₂_map_left_iff]
  exact List.forall₂_same.2 fun t _ => t.standsIn_toJson

theorem ofJson_mapFloats {v : Json} (h : ofJson v = .ok c) : ofJson (v.mapFloats g) = .ok c := by
  cases v with
  | obj entries =>
    rw [Json.mapFloats_obj]
    exact ofJson_obj_eq_ok_iff.2 (ofJson_obj_eq_ok_iff.1 h).mapFloats
  | _ => cases h

theorem ofJson_toJson (c : Config) : ofJson c.toJson = .ok c := by
  obtain ⟨entries, hentries, h⟩ := c.standsIn_toJson
  rw [hentries]
  exact ofJson_obj_eq_ok_iff.2 h

theorem fits_toJson (depth : Nat) (c : Config) : Fits (depth + 4) c.toJson := by
  simp [toJson, Transition.fits_toJson]

theorem mapFloats_toJson (c : Config) : c.toJson.mapFloats g = c.toJson := by
  simp [toJson, Function.comp_def, Transition.mapFloats_toJson]

end Config
end Determinizer
