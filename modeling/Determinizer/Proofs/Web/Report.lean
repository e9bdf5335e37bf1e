import Determinizer.Proofs.Dfa.Layout
import Determinizer.Proofs.Dfa.Statistics
import Determinizer.Proofs.Web.Relayout

/-! What a conversion reports fits together. The start, the table, its layout and the counts are
worked out apart from each other; every answer that reports a table has them agree. -/

namespace Determinizer

def Json.at? (v : Json) (path : List String) : Option Json :=
  path.foldlM (fun w name => w.field? name) v

namespace Table

theorem countP_marked_cells (t : Table) (alphabet : List String) :
    (t.cells alphabet).countP (·.getLast? = some "✓") = t.statistics.accepting := by
  rw [cells, List.countP_map, statistics]
  refine List.countP_congr fun r _ => ?_
  rw [Function.comp_apply, decide_eq_true_iff, Row.getLast?_cells_eq_mark_iff]

end Table

namespace Web

open Encoding (Utf8.encode)
open Json (maxDigits)

/-- An answer whose parts agree with each other and with the configuration that it is for. -/
structure Consistent (c : Config) (answer : Json) (t : Table) (header : List String)
    (rows : List (List String)) (s : Statistics) : Prop where
  dfaTable : answer.at? ["dfa_table"] = some t.toJson
  tableHeader : answer.at? ["table", "header"] = some (.strings header)
  tableRows : answer.at? ["table", "rows"] = some (.arr (rows.map .strings))
  converted : answer.at? ["statistics", "converted"] = some s.toJson
  initialState : ∃ start, answer.at? ["initial_state"] = some (.str start) ∧
    t.head?.map Row.name = some start
  rowByRow : List.Forall₂ (fun (r : Row String) (cells : List String) =>
    cells.head? = some r.name ∧ cells.length = header.length) t rows
  originalTransitions : answer.at? ["statistics", "original", "transitions_count"] =
    some (.int (Transition.triples c.transitions).card)
  states : s.states = t.length ∧ s.states = rows.length
  accepting : s.accepting = rows.countP (·.getLast? = some "✓")
  transitions_le : s.transitions ≤ s.states * c.alphabet.toFinset.card
  states_le : s.states ≤ s.transitions + 1

variable {site : Settings} {r : Request} {delimiter : String} {response : Response}

theorem posts_of_status [Host] (hpath : r.path = Endpoint.convert.path)
    (hresponse : respond site r = .ok (some response)) (hstatus : response.status = 200) :
    r.Posts .convert r.body := by
  obtain ⟨t, htype, hdispatch⟩ := bind_eq_ok.1 hresponse
  refine ⟨hpath, ?_, t, htype, rfl⟩
  cases hpost : r.isPost with
  | true => rfl
  | false =>
    have hrefused : dispatch site t r = some methodNotAllowed := by
      simp [dispatch, hpath, hpost, Endpoint.ofPath?_path]
    rw [hrefused] at hdispatch
    cases hdispatch
    cases hstatus

theorem Conversion.consistent (c : Config) (delimiter : String) :
    Consistent c (Conversion.of c delimiter).toJson (c.determinize delimiter)
      (Table.header c.alphabet) ((c.determinize delimiter).cells c.alphabet)
      (c.determinize delimiter).statistics where
  dfaTable := rfl
  tableHeader := rfl
  tableRows := by
    have hrows : ((c.determinize delimiter).cells c.alphabet).map Json.strings =
        (((c.determinize delimiter).cells c.alphabet).map (·.map Json.str)).map .arr := by
      rw [List.map_map]
      rfl
    rw [hrows]
    rfl
  converted := rfl
  initialState := ⟨_, rfl, by rw [Config.determinize, Nfa.head?_determinize]; rfl⟩
  rowByRow := by
    rw [Table.cells, List.forall₂_map_right_iff, List.forall₂_same]
    intro r _
    refine ⟨by rw [Row.cells_eq]; rfl, ?_⟩
    rw [Row.length_cells, Table.header, Wording.header]
    simp
  originalTransitions := by
    rw [← TransitionMap.length_allDestinations_ofTransitions]
    rfl
  states := ⟨rfl, by rw [Table.cells, List.length_map]; rfl⟩
  accepting := (Table.countP_marked_cells _ _).symm
  transitions_le := c.toNfa.transitions_statistics_le delimiter
  states_le := c.toNfa.states_statistics_le delimiter

/-- Every conversion that is answered with status 200 is answered with a consistent report. -/
theorem report_consistent [Host] (hsite : site.delimiter = some delimiter)
    (hpath : r.path = Endpoint.convert.path) (hresponse : respond site r = .ok (some response))
    (hstatus : response.status = 200) :
    ∃ c answer, r.body.readNfa = .ok c ∧ c.checkLabels delimiter = .ok () ∧
      response.body = answer.compact ∧
      ((∀ n ∈ (Conversion.of c delimiter).counts, n < 10 ^ maxDigits) →
        Json.read response.body = .ok answer) ∧
      Consistent c answer (c.determinize delimiter) (Table.header c.alphabet)
        ((c.determinize delimiter).cells c.alphabet) (c.determinize delimiter).statistics := by
  have hposts := posts_of_status hpath hresponse hstatus
  obtain ⟨c, hc, hlabels, hbody⟩ := exists_conversion_of_status hsite hposts hresponse hstatus
  refine ⟨c, _, hc, hlabels, hbody, fun hcounts => ?_, Conversion.consistent c delimiter⟩
  rw [hbody]
  exact Conversion.read_compact c delimiter hcounts

theorem escaped_report :
    (Transition.triples escapedConfig.transitions).card = 2 ∧
    ∃ response answer, respond ⟨some "=>", none⟩ (.json .convert
        (Utf8.encode (Json.obj [("nfa", .obj escaped)]).compact.toList)) = .ok (some response) ∧
      response.status = 200 ∧ Json.read response.body = .ok answer ∧
      Consistent escapedConfig answer escapedTable ["State", "", "😀", "Accepting"]
        [["q", "∅", "\n=>q", ""], ["\n=>q", "∅", "\n=>q", "✓"]] ⟨2, 2, 1⟩ := by
  have hpost := Request.posts_json .convert
    (Utf8.encode (Json.obj [("nfa", .obj escaped)]).compact.toList)
  have hconfig : Config.parse (.obj escaped) = .ok escapedConfig := rfl
  have haccept : Config.accept "=>" (.obj escaped) = .ok escapedConfig := rfl
  have hsite : Settings.delimiter ⟨some "=>", none⟩ = some "=>" := rfl
  have hresponse := respond_convert_accepted hsite hpost offers_escaped haccept
  obtain ⟨c, answer, hc, -, -, hread, hconsistent⟩ :=
    report_consistent hsite rfl hresponse rfl
  cases (Body.readNfa_of_parse offers_escaped hconfig).symm.trans hc
  rw [determinize_escapedConfig] at hconsistent
  exact ⟨by decide, _, answer, hresponse, rfl, hread fun _ => counts_escapedConfig_lt, hconsistent⟩

end Web
end Determinizer
