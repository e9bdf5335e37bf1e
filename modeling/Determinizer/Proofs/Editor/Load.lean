import Determinizer.Editor.Script
import Determinizer.Proofs.Config.Acceptance
import Determinizer.Proofs.Editor.Draft
import Determinizer.Proofs.Key.Atomic
import Determinizer.Proofs.Nfa.Listing

/-! Loading a configuration into an editor. Nothing is assigned before the labels are checked, and
from then on nothing is missing, so a load is all or nothing. The editor keeps the transitions as a
map, and the check of the labels that comes before a conversion sees the transitions that the map
lists. They have no labels that were not in the configuration, so what was loaded can be converted.
-/

namespace Determinizer

open Encoding (Utf8.encode)

theorem Config.mem_labels_of_denotes {c : Config} {q a p : String}
    (h : Transition.Denotes c.transitions q a p) : q ∈ c.labels ∧ p ∈ c.labels := by
  obtain ⟨t, ht, rfl, -, hp⟩ := h
  have hlabels : ∀ l ∈ t.state :: t.nextStates, l ∈ c.labels := fun l hl =>
    List.mem_append_right _ (List.mem_flatMap.2 ⟨t, ht, hl⟩)
  exact ⟨hlabels _ List.mem_cons_self, hlabels _ (List.mem_cons_of_mem _ hp)⟩

def EditorError.ofObjection : Objection → EditorError
  | .rejected r => .load (.rejected r)
  | .labels fault => .labels fault

theorem EditorError.message_ofObjection (o : Objection) : (ofObjection o).message = o.message := by
  cases o <;> rfl

namespace Editor

variable {e : Editor} {c : Config} {text : String} {v : Json} {o : Objection}
  {fault : LabelFault} {loaded : Except LoadError Config} {s : Step}

theorem checkLabels_toDraft (e : Editor) (c : Config) :
    e.checkLabels c.toDraft = (c.checkLabels e.delimiter).mapError .labels := by
  rw [checkLabels, Config.Draft.checkLabels, Config.labels_toDraft]
  rfl

theorem run_adapt_loadDraft (c : Config) (e : Editor) :
    (ExceptT.adapt EditorError.missing (loadDraft c.toDraft)).run.run e =
      (.ok (), e.loadConfig c) := by
  have hadapt : (ExceptT.adapt EditorError.missing (loadDraft c.toDraft)).run.run e =
      ((loadDraft c.toDraft).run.run e).map (Except.mapError EditorError.missing) id := rfl
  rw [hadapt, run_loadDraft_toDraft]
  rfl

theorem run_loadDocument_error (error : LoadError) (e : Editor) :
    (loadDocument (.error error)).run.run e = (.error (.load error), e) := rfl

theorem run_loadDocument_ok (c : Config) (e : Editor) :
    (loadDocument (.ok c)).run.run e = match c.checkLabels e.delimiter with
      | .ok _ => (.ok c, e.loadConfig c)
      | .error fault => (.error (.labels fault), e) := by
  have hget : ∀ f : Editor → ExceptT EditorError (StateM Editor) Config,
      (get >>= f).run.run e = (f e).run.run e := fun _ => rfl
  have hpure : ∀ e' : Editor,
      (pure c : ExceptT EditorError (StateM Editor) Config).run.run e' = (.ok c, e') := fun _ => rfl
  simp only [loadDocument, Except.mapError, run_bind, run_settled, hget, checkLabels_toDraft]
  cases c.checkLabels e.delimiter with
  | error fault => rfl
  | ok _ => simp only [run_adapt_loadDraft, hpure]

theorem mem_labels_of_loadConfig {l : String} (h : l ∈ (e.loadConfig c).toConfig.labels) :
    l ∈ c.labels := by
  rcases List.mem_append.1 h with hlisted | htransition
  · exact List.mem_append_left _ hlisted
  · obtain ⟨t, ht, hl⟩ := List.mem_flatMap.1 htransition
    obtain ⟨hne, hnext⟩ := TransitionMap.mem_toTransitions.1 ht
    have hdenotes : ∀ p, p ∈ t.nextStates → Transition.Denotes c.transitions t.state t.symbol p := by
      intro p hp
      rw [hnext] at hp
      exact TransitionMap.mem_destinations_ofTransitions.1 (Members.mem_def.2 hp)
    rcases List.mem_cons.1 hl with rfl | hl
    · -- the source of a listed transition has a destination, with which it stands somewhere
      have hsome : t.nextStates ≠ [] := by
        intro hempty
        refine hne (Members.ext fun a => ?_)
        rw [Members.mem_def, ← hnext, hempty]
        simp
      obtain ⟨p, hp⟩ := List.exists_mem_of_ne_nil _ hsome
      exact (Config.mem_labels_of_denotes (hdenotes p hp)).1
    · exact (Config.mem_labels_of_denotes (hdenotes l hl)).2

theorem convert_loadConfig (h : c.checkLabels e.delimiter = .ok ()) :
    (e.loadConfig c).convert =
      .ok { e.loadConfig c with table := c.determinize e.delimiter } := by
  have hlabels : (e.loadConfig c).toConfig.checkLabels e.delimiter = .ok () :=
    checkLabels_eq_ok_iff.2 fun l hl => c.atomic_of_checkLabels h (mem_labels_of_loadConfig hl)
  change (do
    (e.loadConfig c).toConfig.checkLabels e.delimiter
    return _) = _
  rw [hlabels]
  rfl

def Step.document? [Host] : Step → Option (Except LoadError Config)
  | .loadText text => some (Config.load text)
  | .loadBytes bytes => some (Config.loadBytes bytes)
  | _ => none

theorem step_of_document? [Host] (hs : s.document? = some loaded) :
    e.step s = step.told ((loadDocument loaded).run.run e) := by
  cases s with
  | loadText text =>
    cases hs
    rfl
  | loadBytes bytes =>
    cases hs
    rfl
  | _ => cases hs

theorem step_document_broken [Host] {l : LoadError} (hs : s.document? = some (.error l)) :
    e.step s = (.error (.load l), e) := by
  rw [step_of_document? hs, run_loadDocument_error]
  rfl

theorem step_document_mislabelled [Host] (hs : s.document? = some (.ok c))
    (hlabels : c.checkLabels e.delimiter = .error fault) :
    e.step s = (.error (.labels fault), e) := by
  rw [step_of_document? hs, run_loadDocument_ok, hlabels]
  rfl

theorem step_document_accepted [Host] (hs : s.document? = some (.ok c))
    (hlabels : c.checkLabels e.delimiter = .ok ()) :
    e.step s = (.ok (.config c), e.loadConfig c) := by
  rw [step_of_document? hs, run_loadDocument_ok, hlabels]
  rfl

theorem step_document_cases [Host] (e : Editor) (hs : s.document? = some loaded) :
    (∃ error, e.step s = (.error error, e)) ∨
      ∃ c, e.step s = (.ok (.config c), e.loadConfig c) := by
  cases loaded with
  | error l => exact .inl ⟨_, step_document_broken hs⟩
  | ok c =>
    cases hlabels : c.checkLabels e.delimiter with
    | error fault => exact .inl ⟨_, step_document_mislabelled hs hlabels⟩
    | ok _ => exact .inr ⟨c, step_document_accepted hs hlabels⟩

theorem step_convert_loadConfig [Host] (hlabels : c.checkLabels e.delimiter = .ok ()) :
    (e.loadConfig c).step .convert =
      (.ok (.table (c.determinize e.delimiter)),
        { e.loadConfig c with table := c.determinize e.delimiter }) := by
  rw [step, convert_loadConfig hlabels]

def loads (text : String) : List Step := [.loadText text, .loadBytes (Utf8.encode text.toList)]

theorem document?_of_loads [Host] (hs : s ∈ loads text) :
    s.document? = some (Config.load text) := by
  simp only [loads, List.mem_cons, List.not_mem_nil, or_false] at hs
  rcases hs with rfl | rfl
  · rfl
  · exact congrArg some (Config.loadBytes_encode text)

theorem step_loads_accepted [Host] (hs : s ∈ loads text) (hread : Json.read text = .ok v)
    (hc : Config.accept e.delimiter v = .ok c) :
    e.step s = (.ok (.config c), e.loadConfig c) := by
  obtain ⟨hparse, hlabels⟩ := Config.accept_eq_ok_iff.1 hc
  have hdocument := document?_of_loads hs
  rw [Config.load_of_read hread, hparse] at hdocument
  exact step_document_accepted hdocument hlabels

theorem step_loads_objected [Host] (hs : s ∈ loads text) (hread : Json.read text = .ok v)
    (ho : Config.accept e.delimiter v = .error o) : e.step s = (.error (.ofObjection o), e) := by
  have hdocument := document?_of_loads hs
  rw [Config.load_of_read hread] at hdocument
  rcases Config.accept_eq_error_iff.1 ho with ⟨r, hparse, rfl⟩ | ⟨c, fault, hparse, hlabels, rfl⟩
  · rw [hparse] at hdocument
    exact step_document_broken hdocument
  · rw [hparse] at hdocument
    exact step_document_mislabelled hdocument hlabels

theorem run_loads_convert [Host] (hs : s ∈ loads text) (hread : Json.read text = .ok v)
    (hc : Config.accept e.delimiter v = .ok c) :
    e.run [s, .convert] =
      [(.ok (.config c), e.loadConfig c),
        (.ok (.table (c.determinize e.delimiter)),
          { e.loadConfig c with table := c.determinize e.delimiter })] := by
  have hlabels := (Config.accept_eq_ok_iff.1 hc).2
  simp only [run, step_loads_accepted hs hread hc, step_convert_loadConfig hlabels]

/-- Loading is all or nothing, whatever the editor holds. A document that is rejected, that exceeds
a limit or whose labels are at fault leaves the editor as it was. Otherwise the editor holds just
what the document says and no table, and converting it right away has the table of the document. -/
theorem load_all_or_nothing [Host] (e : Editor) (hs : s.document? = some loaded) :
    (∃ error, e.step s = (.error error, e) ∧
      ((∃ l, loaded = .error l ∧ error = .load l) ∨
        ∃ c fault, loaded = .ok c ∧ c.checkLabels e.delimiter = .error fault ∧
          error = .labels fault)) ∨
    ∃ c e', loaded = .ok c ∧ c.checkLabels e.delimiter = .ok () ∧
      e.step s = (.ok (.config c), e') ∧ e'.delimiter = e.delimiter ∧ e'.states = c.states ∧
      e'.alphabet = c.alphabet ∧ e'.initialState = c.initialState ∧
      e'.acceptingStates = c.acceptingStates ∧
      e'.transitions = .ofTransitions c.transitions ∧ e'.table = [] ∧
      e'.step .convert = (.ok (.table (c.determinize e.delimiter)),
        { e' with table := c.determinize e.delimiter }) := by
  cases loaded with
  | error l => exact .inl ⟨_, step_document_broken hs, .inl ⟨l, rfl, rfl⟩⟩
  | ok c =>
    cases hlabels : c.checkLabels e.delimiter with
    | error fault =>
      exact .inl ⟨_, step_document_mislabelled hs hlabels, .inr ⟨c, fault, rfl, hlabels, rfl⟩⟩
    | ok _ =>
      exact .inr ⟨c, _, rfl, hlabels, step_document_accepted hs hlabels, rfl, rfl, rfl, rfl, rfl,
        rfl, rfl, step_convert_loadConfig hlabels⟩

def twoEntriesOfOne : Config where
  states := ["p", "q"]
  alphabet := ["a"]
  transitions := [⟨"p", "a", ["q"]⟩, ⟨"p", "a", ["p"]⟩]
  initialState := "p"
  acceptingStates := ["q"]

theorem load_twoEntriesOfOne :
    (∃ e' : Editor, (fresh "").step (.loadText twoEntriesOfOne.dump) =
        (.ok (.config twoEntriesOfOne), e') ∧ e'.getTransition "p" "a" = ["p", "q"] ∧
      (e'.step .convert).1 = .ok (.table
        [⟨"p", false, [("a", "pq")]⟩, ⟨"pq", true, [("a", "pq")]⟩])) ∧
    ((fresh "q").setStates "r").step (.loadText twoEntriesOfOne.dump) =
      (.error (.labels (.containsDelimiter "q" "q")), (fresh "q").setStates "r") := by
  have hs : (Step.loadText twoEntriesOfOne.dump).document? = some (.ok twoEntriesOfOne) :=
    congrArg some twoEntriesOfOne.load_dump
  constructor
  · have htable : twoEntriesOfOne.determinize "" =
        [⟨"p", false, [("a", "pq")]⟩, ⟨"pq", true, [("a", "pq")]⟩] := by cbv
    have hnext : ∀ e : Editor, e.transitions = .ofTransitions twoEntriesOfOne.transitions →
        e.getTransition "p" "a" = ["p", "q"] := by
      intro e h
      rw [getTransition, h]
      cbv
    obtain ⟨_, -, ⟨_, hl, -⟩ | ⟨c, fault, hc, hlabels, -⟩⟩ |
      ⟨c, e', hc, -, hstep, -, -, -, -, -, hmap, -, hconvert⟩ := load_all_or_nothing (fresh "") hs
    · cases hl
    · cases hc
      have hok : twoEntriesOfOne.checkLabels "" = .ok () := by cbv
      cases hok.symm.trans hlabels
    · cases hc
      refine ⟨e', hstep, hnext e' hmap, ?_⟩
      rw [hconvert]
      exact congrArg (fun t => Except.ok (Reply.table t)) htable
  · have hfault : twoEntriesOfOne.checkLabels "q" = .error (.containsDelimiter "q" "q") := by cbv
    obtain ⟨error, hstep, ⟨_, hl, -⟩ | ⟨c, fault, hc, hlabels, rfl⟩⟩ | ⟨c, e', hc, hlabels, -⟩ :=
      load_all_or_nothing ((fresh "q").setStates "r") hs
    · cases hl
    · cases hc
      cases hfault.symm.trans hlabels
      exact hstep
    · cases hc
      cases hfault.symm.trans hlabels

end Editor
end Determinizer
