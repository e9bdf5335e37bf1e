import Determinizer.Proofs.Exploration.Renaming
import Determinizer.Proofs.Web.Conversion

/-! A converted table sent back to be laid out. Its rows keep what the layout of a conversion reads:
the name, the mark, and the first target of each symbol. So the two endpoints agree on the cells,
whichever texts the columns are for. -/

namespace Determinizer

variable {α β : Type} (f : α → β)

theorem Row.target?_map (r : Row α) (a : String) : (r.map f).target? a = (r.target? a).map f := by
  simp only [target?, map]
  induction r.transitions with
  | nil => rfl
  | cons e es ih =>
    rw [List.map_cons, List.lookup_cons, List.lookup_cons]
    split
    · rfl
    · exact ih

namespace Wording

theorem header_map (w : Wording α) (alphabet : List α) :
    (w.map f).header (alphabet.map f) = (w.header alphabet).map f := by
  simp [header, map]

theorem cells_map (w : Wording α) (name : α) (targets : List (Option α)) (accepting : Bool) :
    (w.map f).cells (f name) (targets.map (Option.map f)) accepting =
      (w.cells name targets accepting).map f := by
  have htargets : (targets.map (Option.map f)).map (·.getD (f w.noTransition)) =
      (targets.map (·.getD w.noTransition)).map f := by
    rw [List.map_map, List.map_map]
    refine List.map_congr_left fun target _ => ?_
    cases target <;> rfl
  have hmark : (if accepting then f w.mark else f w.noMark) =
      f (if accepting then w.mark else w.noMark) := (apply_ite f _ _ _).symm
  simp only [cells, map, htargets, hmark, List.map_append, List.map_cons, List.map_nil]

end Wording

namespace Web

open Encoding (Utf8.encode)
open Json (Fits maxDigits)

def Body.OffersTable [Host] (b : Body) (alphabet table : Json) : Prop :=
  ∃ entries, b.Denotes (.obj entries) ∧ entries.lookup "alphabet" = some alphabet ∧
    entries.lookup "dfa_table" = some table

def tableOffer (alphabet : List String) (t : Table) : Json :=
  .obj [("alphabet", .strings alphabet), ("dfa_table", t.toJson)]

def laidOut (t : Table) (alphabet : List String) : Json :=
  layoutJson (("State" :: alphabet ++ ["Accepting"]).map .str)
    (t.map fun r => (r.name :: alphabet.map (fun a => (r.target? a).getD "∅") ++
      [if r.accepting then "✓" else ""]).map .str)

variable {site : Settings} {r : Request} {b : Body} {delimiter : String} {response : Response}
  {t : Table} {alphabet : List String}

theorem laidOut_eq (t : Table) (alphabet : List String) : laidOut t alphabet =
    layoutJson ((Table.header alphabet).map .str) ((t.cells alphabet).map (·.map .str)) := by
  simp only [laidOut, Table.header, Table.cells, Row.cells, Wording.header, Wording.cells,
    List.map_map, Function.comp_def]
  rfl

theorem rowOfJson_toJson (r : Row String) : rowOfJson r.toJson = .ok (r.map .str) :=
  rfl

theorem mapM_rowOfJson_toJson (t : Table) :
    (t.map Row.toJson).mapM rowOfJson = .ok (t.map (·.map .str)) :=
  mapM_map_eq_ok rowOfJson_toJson t

theorem layout_strings (t : Table) (alphabet : List String) :
    layout (alphabet.map .str) (t.map (·.map .str)) = laidOut t alphabet := by
  have hcells : ∀ r : Row String, jsonWording.cells (r.map Json.str).name
      ((alphabet.map .str).map (targetAt? (r.map .str))) (r.map Json.str).accepting =
        (r.cells alphabet).map .str := by
    intro r
    have htargets : (alphabet.map .str).map (targetAt? (r.map .str)) =
        (alphabet.map r.target?).map (Option.map .str) := by
      rw [List.map_map, List.map_map]
      exact List.map_congr_left fun a _ => r.target?_map Json.str a
    rw [htargets]
    exact wording.cells_map Json.str r.name _ r.accepting
  rw [layout, laidOut_eq, jsonWording, wording.header_map, Table.header, Table.cells, List.map_map,
    List.map_map]
  congr 1
  exact List.map_congr_left fun r _ => hcells r

theorem findSome?_container?_strings (alphabet : List String) :
    (alphabet.map Json.str).findSome? container? = none := by
  rw [List.findSome?_eq_none_iff]
  intro v hv
  obtain ⟨a, -, rfl⟩ := List.mem_map.1 hv
  rfl

theorem render_of_offersTable [Host] (h : b.OffersTable (.strings alphabet) t.toJson)
    (hb : b.WithinLimit) : (do render (← b.readObject)) = .ok (laidOut t alphabet) := by
  obtain ⟨entries, hdenotes, halphabet, htable⟩ := h
  have hrender : render (.obj entries) = .ok (laidOut t alphabet) := by
    rw [← layout_strings]
    simp only [render, Json.field?, halphabet, htable, Json.strings, Table.toJson,
      mapM_rowOfJson_toJson, findSome?_container?_strings]
    cases t.map (Row.map Json.str) <;> rfl
  rw [hdenotes.readObject hb]
  exact hrender

theorem depth_laidOut_le (t : Table) (alphabet : List String) : (laidOut t alphabet).depth ≤ 3 := by
  rw [laidOut_eq]
  exact (fits_layoutJson 0 _ _).depth_le

theorem respond_of_offersTable [Host] (hr : r.Posts .renderTable b)
    (h : b.OffersTable (.strings alphabet) t.toJson) (hb : b.WithinLimit) :
    respond site r = .ok (some (jsonResponse 200 (laidOut t alphabet))) := by
  rw [respond_of_posts hr, Endpoint.post, render_of_offersTable h hb,
    answered_of_depth_le ((depth_laidOut_le t alphabet).trans (by decide))]

theorem read_laidOut [Host] (t : Table) (alphabet : List String) :
    Json.read (laidOut t alphabet).compact = .ok (laidOut t alphabet) := by
  have hfits : Fits Host.reading (laidOut t alphabet) := by
    rw [laidOut_eq]
    exact (fits_layoutJson 0 _ _).reading (by decide)
  have hfloats : ∀ g, (laidOut t alphabet).mapFloats g = laidOut t alphabet := fun g => by
    simp [laidOut, layoutJson, Function.comp_def]
  exact (Json.read_write_of_mapFloats hfits hfloats).2

theorem offersTable_compact [Host] (h : ∀ r ∈ t, (r.transitions.map Prod.fst).Nodup) :
    (Body.raw (Utf8.encode (tableOffer alphabet t).compact.toList)).OffersTable (.strings alphabet)
      t.toJson := by
  have hfits : Fits (3 + 1) (tableOffer alphabet t) := by
    simp [tableOffer, Json.fits_strings 2, t.fits_toJson 0 h]
  have hfloats : ∀ g, (tableOffer alphabet t).mapFloats g = tableOffer alphabet t := fun g => by
    simp [tableOffer, Table.mapFloats_toJson]
  exact ⟨_, Body.denotes_compact (hfits.reading (by decide)) hfloats, rfl, rfl⟩

theorem exists_conversion_of_status [Host] (hsite : site.delimiter = some delimiter)
    (hr : r.Posts .convert b) (hresponse : respond site r = .ok (some response))
    (hstatus : response.status = 200) :
    ∃ c, b.readNfa = .ok c ∧ c.checkLabels delimiter = .ok () ∧
      response.body = (Conversion.of c delimiter).toJson.compact := by
  rw [respond_of_posts hr] at hresponse
  cases hresponse
  rw [Endpoint.post] at hstatus ⊢
  cases hconvert : convert site b with
  | error f =>
    rw [hconvert] at hstatus
    cases f <;> cases hstatus
  | ok answer =>
    obtain ⟨c, hc, hlabels, rfl⟩ := (convert_eq_ok_iff hsite).1 hconvert
    exact ⟨c, hc, hlabels, congrArg Response.body (answered_conversion _)⟩

def escaped : List (String × Json) :=
  [ ("states", .strings []), ("alphabet", .strings ["", "😀"]),
    ("transitions", .arr [.obj [("state", .str "q"), ("symbol", .str "😀"),
      ("nextStates", .strings ["q", "\n"])]]),
    ("initialState", .str "q"), ("acceptingStates", .strings ["\n"]) ]

def escapedConfig : Config := ⟨[], ["", "😀"], [⟨"q", "😀", ["q", "\n"]⟩], "q", ["\n"]⟩

def escapedTable : Table :=
  [⟨"q", false, [("😀", "\n=>q")]⟩, ⟨"\n=>q", true, [("😀", "\n=>q")]⟩]

theorem fits_escaped (depth : Nat) : Fits (depth + 4) (.obj escaped) := by
  simp [escaped]

theorem length_compact_escaped_le :
    4 * (Json.obj [("nfa", .obj escaped)]).compact.toList.length ≤ maxBodyBytes ∧
      4 * (tableOffer ["😀", ""] escapedTable).compact.toList.length ≤ maxBodyBytes := by
  rw [Json.compact, Json.compact, String.toList_ofList, String.toList_ofList]
  decide +kernel

theorem offers_escaped :
    (Body.raw (Utf8.encode (Json.obj [("nfa", .obj escaped)]).compact.toList)).Offers
      (.obj escaped) :=
  Body.offers_compact (fits_escaped 0) (by decide) (by simp [escaped])
    ((Encoding.Utf8.length_encode_le _).trans length_compact_escaped_le.1)

theorem determinize_escapedConfig : escapedConfig.determinize "=>" = escapedTable := by cbv

theorem counts_escapedConfig_lt {n : Nat} (hn : n ∈ (Conversion.of escapedConfig "=>").counts) :
    n < 10 ^ maxDigits := by
  have hcounts : (Conversion.of escapedConfig "=>").counts = [0, 2, 2, 1, 2, 2, 1] := by
    rw [Conversion.counts, Conversion.of, determinize_escapedConfig]
    rfl
  exact Conversion.counts_lt hcounts (by decide) n hn

section Long

variable (n : Nat)

def longConfig : Config := ⟨[], [longText n], [⟨"p", longText n, ["p", "q"]⟩], "p", []⟩

def longTable : Table := [⟨"p", false, [(longText n, "pq")]⟩, ⟨"pq", false, [(longText n, "pq")]⟩]

theorem determinize_longConfig : (longConfig n).determinize "" = longTable n := by
  rw [longConfig, longTable]
  generalize longText n = symbol
  cbv

set_option maxRecDepth 2000 in
theorem compact_longConfig :
    (Json.obj [("nfa", (longConfig n).toJson)]).compact.toList =
      "\x7b\"nfa\": \x7b\"states\": [], \"alphabet\": [".toList ++
        (Json.Layout.compact.quote (longText n) ++
          ("], \"transitions\": [\x7b\"state\": \"p\", \"symbol\": ".toList ++
            (Json.Layout.compact.quote (longText n) ++
              (", \"nextStates\": [\"p\", \"q\"]\x7d], \"initialState\": \"p\", " ++
                "\"acceptingStates\": []\x7d\x7d").toList))) := by
  rw [Json.compact, String.toList_ofList]
  simp only [longConfig, Config.toJson, Transition.toJson, Json.strings, List.map,
    Json.Layout.chars, Json.Layout.itemChars, Json.Layout.entryChars, List.append_assoc,
    List.cons_append]
  generalize Json.Layout.compact.quote (longText n) = symbol
  rfl

set_option maxRecDepth 2000 in
theorem compact_longTable :
    (tableOffer [longText n] (longTable n)).compact.toList =
      "\x7b\"alphabet\": [".toList ++
        (Json.Layout.compact.quote (longText n) ++
          ("], \"dfa_table\": [\x7b\"name\": \"p\", \"isAccepting\": false, " ++
              "\"transitions\": \x7b").toList ++
            (Json.Layout.compact.quote (longText n) ++
              (": \"pq\"\x7d\x7d, \x7b\"name\": \"pq\", \"isAccepting\": false, " ++
                  "\"transitions\": \x7b").toList ++
                (Json.Layout.compact.quote (longText n) ++ ": \"pq\"\x7d\x7d]\x7d".toList))) := by
  rw [Json.compact, String.toList_ofList]
  simp only [tableOffer, longTable, Table.toJson, Row.toJson, Json.strings, List.map,
    Json.Layout.chars, Json.Layout.itemChars, Json.Layout.entryChars, List.append_assoc,
    List.cons_append]
  generalize Json.Layout.compact.quote (longText n) = symbol
  rfl

theorem length_encode_longConfig :
    (Utf8.encode (Json.obj [("nfa", (longConfig n).toJson)]).compact.toList).length =
      2 * n + 158 := by
  have hbefore : (Utf8.encode
    "\x7b\"nfa\": \x7b\"states\": [], \"alphabet\": [".toList).length = 36 := by decide +kernel
  have hbetween : (Utf8.encode
      "], \"transitions\": [\x7b\"state\": \"p\", \"symbol\": ".toList).length = 44 := by
    decide +kernel
  have hafter : (Utf8.encode (", \"nextStates\": [\"p\", \"q\"]\x7d], \"initialState\": \"p\", " ++
      "\"acceptingStates\": []\x7d\x7d").toList).length = 74 := by decide +kernel
  simp only [compact_longConfig, Encoding.Utf8.encode_append, List.length_append,
    length_encode_quote_longText, hbefore, hbetween, hafter]
  omega

theorem lt_length_encode_longTable :
    3 * n < (Utf8.encode (tableOffer [longText n] (longTable n)).compact.toList).length := by
  simp only [compact_longTable, Encoding.Utf8.encode_append, List.length_append,
    length_encode_quote_longText]
  omega

theorem accept_longConfig : Config.accept "" (longConfig n).toJson = .ok (longConfig n) := by
  have hlabels : (longConfig n).checkLabels "" = .ok () := by
    rw [longConfig]
    generalize longText n = symbol
    cbv
  exact Config.accept_eq_ok_iff.2 ⟨mapError_eq_ok.2 (longConfig n).ofJson_toJson, hlabels⟩

end Long

end Web
end Determinizer
