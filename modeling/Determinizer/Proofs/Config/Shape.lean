import Determinizer.Proofs.Config.Completeness
import Determinizer.Proofs.Json.Shape

/-! The shape of configurations among all values. A value is read just if it has the shape, and the
fault that is told of any other value is one that it has. What is read are the fields of the format,
in the value and in each of its transitions, in their order. Nothing else matters: values with the
same fields are read alike, or rejected alike, whatever other entries stand in them. -/

namespace Determinizer

open Json (IsObject IsText IsTexts)

namespace Transition

variable {v w : Json} {t : Transition}

structure Shaped (v : Json) : Prop where
  state : v.Has "state" IsText
  symbol : v.Has "symbol" IsText
  nextStates : v.Has "nextStates" IsTexts

def projection (v : Json) : Json :=
  .obj [("state", v.get "state"), ("symbol", v.get "symbol"), ("nextStates", v.get "nextStates")]

/-- Both values are objects or neither is, and the fields of a transition are the same in both. An
entry of null is as good as none. -/
def Agree (v w : Json) : Prop :=
  (v.IsObject ↔ w.IsObject) ∧ ∀ name ∈ ["state", "symbol", "nextStates"], v.get name = w.get name

theorem StandsIn.shaped (h : t.StandsIn v) : Shaped v := by
  obtain ⟨entries, rfl, hstate, hsymbol, hnext⟩ := h
  exact ⟨⟨_, hstate, _, rfl⟩, ⟨_, hsymbol, _, rfl⟩, ⟨_, hnext, Json.isTexts_iff.2 ⟨_, rfl⟩⟩⟩

theorem StandsIn.projection_eq (h : t.StandsIn v) : projection v = t.toJson := by
  obtain ⟨entries, rfl, hstate, hsymbol, hnext⟩ := h
  simp [projection, toJson, Json.get, Json.field?, hstate, hsymbol, hnext]

theorem map_projection_eq {items : List Json} {ts : List Transition}
    (h : List.Forall₂ (fun v t => StandsIn t v) items ts) :
    items.map projection = ts.map toJson := by
  rw [← List.forall₂_eq_eq_eq, List.forall₂_map_left_iff, List.forall₂_map_right_iff]
  exact h.imp fun _ _ => StandsIn.projection_eq

theorem ofJson_of_not_isObject (index : Nat) (h : ¬ v.IsObject) :
    ofJson index v = .error (.transitionNotObject index) := by
  cases v with
  | obj entries => exact absurd ⟨entries, rfl⟩ h
  | _ => rfl

theorem Agree.ofJson_eq (h : Agree v w) (index : Nat) : ofJson index v = ofJson index w := by
  obtain ⟨hobject, hfields⟩ := h
  by_cases hv : v.IsObject
  · obtain ⟨entries', rfl⟩ := hobject.1 hv
    obtain ⟨entries, rfl⟩ := hv
    have hstate := hfields "state" (by simp)
    have hsymbol := hfields "symbol" (by simp)
    have hnext := hfields "nextStates" (by simp)
    simp only [Json.get, Json.field?] at hstate hsymbol hnext
    simp only [ofJson, ← Json.str?_getD_null, ← Json.strings?_getD_null, hstate, hsymbol, hnext]
  · rw [ofJson_of_not_isObject index hv,
      ofJson_of_not_isObject index fun hw => hv (hobject.2 hw)]

theorem mapM_ofJson_congr {items items' : List Json} (h : List.Forall₂ Agree items items') :
    items.zipIdx.mapM (fun (v, index) => ofJson index v) =
      items'.zipIdx.mapM fun (v, index) => ofJson index v := by
  suffices hfrom : ∀ k, (items.zipIdx k).mapM (fun (v, index) => ofJson index v) =
      (items'.zipIdx k).mapM fun (v, index) => ofJson index v from hfrom 0
  induction h with
  | nil => exact fun _ => rfl
  | cons hv _ ih =>
    intro k
    simp only [List.zipIdx_cons, List.mapM_cons, hv.ofJson_eq, ih]

end Transition

def Json.transition? (v : Json) (index : Nat) : Option Json := (v.get "transitions").items[index]?

def ShapeFault.Found (v : Json) : ShapeFault → Prop
  | notObject => ¬ v.IsObject
  | missingKey name => name ∈ Config.fieldNames ∧ v.field? name = none
  | notStrings name =>
    name ∈ ["states", "alphabet", "acceptingStates"] ∧ v.Has name fun w => ¬ w.IsTexts
  | initialStateNotString => v.Has "initialState" fun w => ¬ w.IsText
  | transitionsNotList => v.Has "transitions" fun w => ∀ items, w ≠ .arr items
  | transitionNotObject index => ∃ w, v.transition? index = some w ∧ ¬ w.IsObject
  | transitionWithoutState index => ∃ w, v.transition? index = some w ∧ ¬ w.Has "state" IsText
  | transitionWithoutSymbol index => ∃ w, v.transition? index = some w ∧ ¬ w.Has "symbol" IsText
  | nextStatesNotStrings index =>
    ∃ w, v.transition? index = some w ∧ ¬ w.Has "nextStates" IsTexts

namespace Config

variable {v w : Json} {c : Config} {fault : ShapeFault} {entries : List (String × Json)}
  {name : String}

structure Shaped (v : Json) : Prop where
  states : v.Has "states" IsTexts
  alphabet : v.Has "alphabet" IsTexts
  transitions : v.Has "transitions" fun w =>
    ∃ items, w = .arr items ∧ ∀ t ∈ items, Transition.Shaped t
  initialState : v.Has "initialState" IsText
  acceptingStates : v.Has "acceptingStates" IsTexts

def projection (v : Json) : Json :=
  .obj
    [ ("states", v.get "states"), ("alphabet", v.get "alphabet"),
      ("transitions", .arr ((v.get "transitions").items.map Transition.projection)),
      ("initialState", v.get "initialState"), ("acceptingStates", v.get "acceptingStates") ]

structure Agree (v w : Json) : Prop where
  isObject : v.IsObject ↔ w.IsObject
  fields : ∀ name ∈ fieldNames, name ≠ "transitions" → v.field? name = w.field? name
  transitions : v.field? "transitions" = w.field? "transitions" ∨
    ∃ items items', v.field? "transitions" = some (.arr items) ∧
      w.field? "transitions" = some (.arr items') ∧ List.Forall₂ Transition.Agree items items'

theorem StandsIn.shaped (h : c.StandsIn entries) : Shaped (.obj entries) where
  states := ⟨_, h.states, Json.isTexts_iff.2 ⟨_, rfl⟩⟩
  alphabet := ⟨_, h.alphabet, Json.isTexts_iff.2 ⟨_, rfl⟩⟩
  transitions := by
    obtain ⟨items, hitems, htransitions⟩ := h.transitions
    have hshaped := htransitions.imp fun _ _ h => And.intro h.shaped h
    exact ⟨_, hitems, items, rfl, ((List.forall₂_and_left _ _).1 hshaped).1⟩
  initialState := ⟨_, h.initialState, _, rfl⟩
  acceptingStates := ⟨_, h.acceptingStates, Json.isTexts_iff.2 ⟨_, rfl⟩⟩

theorem StandsIn.toJson_eq_projection (h : c.StandsIn entries) :
    c.toJson = projection (.obj entries) := by
  obtain ⟨items, hitems, htransitions⟩ := h.transitions
  simp [toJson, projection, Json.get, Json.field?, Json.items, h.states, h.alphabet, hitems,
    h.initialState, h.acceptingStates, Transition.map_projection_eq htransitions]

theorem stringsField_eq_error (h : stringsField entries name = .error fault) :
    fault = .notStrings name ∧ ¬ (Json.obj entries).Has name IsTexts := by
  unfold stringsField at h
  split at h
  · cases h
  · next hnone =>
    cases h
    exact ⟨rfl, Json.not_has_isTexts_iff.2 hnone⟩

theorem initialField_eq_error (h : initialField entries = .error fault) :
    fault = .initialStateNotString ∧ ¬ (Json.obj entries).Has "initialState" IsText := by
  unfold initialField at h
  split at h
  · cases h
  · next hnone =>
    cases h
    exact ⟨rfl, Json.not_has_isText_iff.2 hnone⟩

end Config

namespace ShapeFault

open Config (fieldNames)

variable {v w : Json} {fault : ShapeFault} {index : Nat}

theorem found_of_transition (hw : v.transition? index = some w)
    (h : Transition.ofJson index w = .error fault) : fault.Found v := by
  cases w with
  | obj entries =>
    simp only [Transition.ofJson] at h
    split at h
    · next hstate =>
      cases h
      exact ⟨_, hw, Json.not_has_isText_iff.2 hstate⟩
    split at h
    · next hsymbol =>
      cases h
      exact ⟨_, hw, Json.not_has_isText_iff.2 hsymbol⟩
    split at h
    · next hnext =>
      cases h
      exact ⟨_, hw, Json.not_has_isTexts_iff.2 hnext⟩
    · cases h
  | _ =>
    cases h
    refine ⟨_, hw, ?_⟩
    rintro ⟨_, hobject⟩
    cases hobject

theorem found_of_transitionsField {entries : List (String × Json)}
    (hw : (Json.obj entries).field? "transitions" = some w)
    (h : Config.transitionsField entries = .error fault) : fault.Found (.obj entries) := by
  unfold Config.transitionsField at h
  split at h
  · next items hitems =>
    obtain ⟨⟨t, index⟩, hmem, ht⟩ := exists_mem_of_mapM_eq_error h
    refine found_of_transition ?_ ht
    rw [Json.transition?, Json.get, Json.field?, hitems]
    exact List.mk_mem_zipIdx_iff_getElem?.1 hmem
  · next hnot =>
    cases h
    refine ⟨w, hw, ?_⟩
    rintro items rfl
    exact hnot items hw

theorem found_of_ofJson (h : Config.ofJson v = .error fault) : fault.Found v := by
  cases v with
  | obj entries =>
    simp only [Config.ofJson] at h
    split at h
    · next name hname =>
      cases h
      have hnone := List.find?_some hname
      exact ⟨List.mem_of_find?_eq_some hname, Option.isNone_iff_eq_none.1 hnone⟩
    · next hall =>
      have hsome : ∀ name ∈ fieldNames, ∃ w, (Json.obj entries).field? name = some w := by
        intro name hname
        have hpresent := List.find?_eq_none.1 hall name hname
        exact Option.ne_none_iff_exists'.1 fun h => hpresent (Option.isNone_iff_eq_none.2 h)
      have htexts : ∀ name ∈ ["states", "alphabet", "acceptingStates"], name ∈ fieldNames →
          Config.stringsField entries name = .error fault → fault.Found (.obj entries) := by
        intro name hlist hname herror
        obtain ⟨rfl, hnot⟩ := Config.stringsField_eq_error herror
        obtain ⟨w, hw⟩ := hsome name hname
        exact ⟨hlist, Json.has_not_of_not_has hw hnot⟩
      simp only [bind_eq_error] at h
      -- the first part that fails tells which field is at fault
      rcases h with h | ⟨states, -, h | ⟨alphabet, -, h | ⟨initialState, -, h |
        ⟨acceptingStates, -, h | ⟨transitions, -, h⟩⟩⟩⟩⟩
      · exact htexts "states" (by simp) (by simp [fieldNames]) h
      · exact htexts "alphabet" (by simp) (by simp [fieldNames]) h
      · obtain ⟨rfl, hnot⟩ := Config.initialField_eq_error h
        obtain ⟨w, hw⟩ := hsome "initialState" (by simp [fieldNames])
        exact Json.has_not_of_not_has hw hnot
      · exact htexts "acceptingStates" (by simp) (by simp [fieldNames]) h
      · obtain ⟨w, hw⟩ := hsome "transitions" (by simp [fieldNames])
        exact found_of_transitionsField hw h
      · cases h
  | _ =>
    cases h
    rintro ⟨_, hobject⟩
    cases hobject

end ShapeFault

namespace Config

variable {v w : Json} {c : Config} {fault : ShapeFault}

theorem shaped_of_ofJson (h : ofJson v = .ok c) : Shaped v := by
  cases v with
  | obj entries => exact (ofJson_obj_eq_ok_iff.1 h).shaped
  | _ => cases h

theorem Shaped.field?_ne_none (h : Shaped v) {name : String} (hname : name ∈ fieldNames) :
    v.field? name ≠ none := by
  have hpresent : ∀ {P : Json → Prop}, v.Has name P → v.field? name ≠ none := by
    rintro P ⟨w, hw, -⟩ hnone
    cases hw.symm.trans hnone
  simp only [fieldNames, List.mem_cons, List.not_mem_nil, or_false] at hname
  rcases hname with rfl | rfl | rfl | rfl | rfl
  · exact hpresent h.states
  · exact hpresent h.alphabet
  · exact hpresent h.transitions
  · exact hpresent h.initialState
  · exact hpresent h.acceptingStates

theorem Shaped.transition (h : Shaped v) {index : Nat} (hw : v.transition? index = some w) :
    Transition.Shaped w := by
  obtain ⟨_, hfield, items, rfl, hitems⟩ := h.transitions
  rw [Json.transition?, Json.get, hfield] at hw
  exact hitems w (List.mem_of_getElem? hw)

theorem Shaped.not_found (h : Shaped v) (fault : ShapeFault) : ¬ fault.Found v := by
  cases fault with
  | notObject => exact fun hnot => hnot h.states.isObject
  | missingKey name => exact fun ⟨hname, hnone⟩ => h.field?_ne_none hname hnone
  | notStrings name =>
    rintro ⟨hname, hnot⟩
    simp only [List.mem_cons, List.not_mem_nil, or_false] at hname
    rcases hname with rfl | rfl | rfl
    · exact h.states.elim hnot
    · exact h.alphabet.elim hnot
    · exact h.acceptingStates.elim hnot
  | initialStateNotString => exact h.initialState.elim
  | transitionsNotList =>
    rintro ⟨w, hw, hnot⟩
    obtain ⟨_, hfield, items, rfl, -⟩ := h.transitions
    cases hw.symm.trans hfield
    exact hnot items rfl
  | transitionNotObject index => exact fun ⟨w, hw, hnot⟩ => hnot (h.transition hw).state.isObject
  | transitionWithoutState index => exact fun ⟨w, hw, hnot⟩ => hnot (h.transition hw).state
  | transitionWithoutSymbol index => exact fun ⟨w, hw, hnot⟩ => hnot (h.transition hw).symbol
  | nextStatesNotStrings index => exact fun ⟨w, hw, hnot⟩ => hnot (h.transition hw).nextStates

theorem exists_ofJson_iff : (∃ c, ofJson v = .ok c) ↔ Shaped v := by
  constructor
  · rintro ⟨c, h⟩
    exact shaped_of_ofJson h
  · intro h
    cases hread : ofJson v with
    | ok c => exact ⟨c, rfl⟩
    | error fault => exact absurd (ShapeFault.found_of_ofJson hread) (h.not_found fault)

theorem exists_found_of_not_shaped (h : ¬ Shaped v) :
    ∃ fault, ofJson v = .error fault ∧ fault.Found v := by
  cases hread : ofJson v with
  | ok c => exact absurd (shaped_of_ofJson hread) h
  | error fault => exact ⟨fault, rfl, ShapeFault.found_of_ofJson hread⟩

theorem toJson_eq_projection (h : ofJson v = .ok c) : c.toJson = projection v := by
  cases v with
  | obj entries => exact (ofJson_obj_eq_ok_iff.1 h).toJson_eq_projection
  | _ => cases h

theorem ofJson_of_not_isObject (h : ¬ v.IsObject) : ofJson v = .error .notObject := by
  cases v with
  | obj entries => exact absurd ⟨entries, rfl⟩ h
  | _ => rfl

theorem transitionsField_congr {entries entries' : List (String × Json)}
    (h : Agree (.obj entries) (.obj entries')) :
    transitionsField entries = transitionsField entries' := by
  have htransitions := h.transitions
  simp only [Json.field?] at htransitions
  unfold transitionsField
  rcases htransitions with hsame | ⟨items, items', hitems, hitems', hagree⟩
  · rw [hsame]
  · rw [hitems, hitems']
    exact Transition.mapM_ofJson_congr hagree

theorem Agree.isNone_lookup_eq {entries entries' : List (String × Json)}
    (h : Agree (.obj entries) (.obj entries')) {name : String} (hname : name ∈ fieldNames) :
    (entries.lookup name).isNone = (entries'.lookup name).isNone := by
  have htransitions := h.transitions
  have hfield := h.fields name hname
  simp only [Json.field?] at htransitions hfield
  by_cases heq : name = "transitions"
  · subst heq
    rcases htransitions with hsame | ⟨items, items', hitems, hitems', -⟩
    · rw [hsame]
    · rw [hitems, hitems']
      rfl
  · rw [hfield heq]

theorem Agree.ofJson_eq (h : Agree v w) : ofJson v = ofJson w := by
  by_cases hv : v.IsObject
  · obtain ⟨entries', rfl⟩ := h.isObject.1 hv
    obtain ⟨entries, rfl⟩ := hv
    have hfind : (fieldNames.find? fun name => (entries.lookup name).isNone) =
        fieldNames.find? fun name => (entries'.lookup name).isNone :=
      List.find?_congr fun name hname => h.isNone_lookup_eq hname
    have hfields := h.fields
    simp only [Json.field?] at hfields
    simp only [ofJson, stringsField, initialField, hfind, transitionsField_congr h,
      hfields "states" (by simp [fieldNames]) (by simp),
      hfields "alphabet" (by simp [fieldNames]) (by simp),
      hfields "initialState" (by simp [fieldNames]) (by simp),
      hfields "acceptingStates" (by simp [fieldNames]) (by simp)]
  · have hw : ¬ w.IsObject := fun hw => hv (h.isObject.2 hw)
    rw [ofJson_of_not_isObject hv, ofJson_of_not_isObject hw]

/-- A configuration is read from the values of the shape and from no others, which are rejected for
a fault that they have. It is what stands in the fields of the format, where all of them are found
without a further check, and its own document is read as it is. Values that agree in these fields
are read or rejected alike. -/
theorem parse_iff_shaped (v : Json) :
    ((∃ c, parse v = .ok c) ↔ Shaped v) ∧
    (¬ Shaped v → ∃ fault, parse v = .error (.misshapen fault) ∧ fault.Found v) ∧
    (∀ c, parse v = .ok c → c.toJson = projection v ∧ (Draft.ofJson v).complete = .ok c ∧
      ofJson c.toJson = .ok c ∧ parse c.toJson = .ok c) ∧
    ∀ w, Agree v w → parse v = parse w := by
  refine ⟨?_, fun h => ?_, fun c h => ?_, fun w h => ?_⟩
  · simp only [parse, mapError_eq_ok]
    exact exists_ofJson_iff
  · obtain ⟨fault, herror, hfound⟩ := exists_found_of_not_shaped h
    refine ⟨fault, ?_, hfound⟩
    rw [parse, herror]
    rfl
  · have hread := mapError_eq_ok.1 h
    have hdocument := c.ofJson_toJson
    exact ⟨toJson_eq_projection hread, (served_of_ofJson "" hread).fields, hdocument,
      mapError_eq_ok.2 hdocument⟩
  · rw [parse, parse, h.ofJson_eq]

def remarked (remark t : Json) : Json :=
  .obj
    [ ("remark", remark), ("states", .strings ["q", "p"]), ("alphabet", .strings ["a"]),
      ("initialState", .str "q"), ("transitions", .arr [t]), ("acceptingStates", .strings []) ]

def remarkedTransition : Json :=
  .obj
    [ ("state", .str "q"), ("remark", .bool true), ("symbol", .str "a"),
      ("nextStates", .strings ["p", "p"]) ]

theorem agree_remarked (remark remark' : Json) {t t' : Json} (h : Transition.Agree t t') :
    Agree (remarked remark t) (remarked remark' t') where
  isObject := iff_of_true ⟨_, rfl⟩ ⟨_, rfl⟩
  fields := by simp [fieldNames, remarked, Json.field?, List.lookup_cons]
  transitions := .inr ⟨[t], [t'], rfl, rfl, .cons h .nil⟩

theorem remarked_read :
    (∃ c, parse (remarked .null remarkedTransition) = .ok c ∧
      c.transitions = [⟨"q", "a", ["p", "p"]⟩] ∧
      c.toJson = projection (remarked .null remarkedTransition) ∧ parse c.toJson = .ok c) ∧
    parse (remarked (.int 1) (.obj [("state", .null)])) = parse (remarked .null (.obj [])) ∧
    ∃ fault, parse (remarked .null (.obj [])) = .error (.misshapen fault) ∧
      fault.message = "Transition 0 is missing a state" := by
  have hread : parse (remarked .null remarkedTransition) =
      .ok ⟨["q", "p"], ["a"], [⟨"q", "a", ["p", "p"]⟩], "q", []⟩ := rfl
  obtain ⟨hprojection, -, -, hagain⟩ := (parse_iff_shaped _).2.2.1 _ hread
  have hstate : Transition.Agree (.obj [("state", .null)]) (.obj []) :=
    ⟨iff_of_true ⟨_, rfl⟩ ⟨_, rfl⟩, by simp [Json.get, Json.field?, List.lookup_cons]⟩
  exact ⟨⟨_, hread, rfl, hprojection, hagain⟩,
    (parse_iff_shaped _).2.2.2 _ (agree_remarked _ _ hstate),
    .transitionWithoutState 0, rfl, by decide⟩

end Config
end Determinizer
