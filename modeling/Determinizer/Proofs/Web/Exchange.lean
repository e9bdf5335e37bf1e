import Determinizer.Proofs.Config.Exchange
import Determinizer.Proofs.Web.Requests

/-! Configurations that go out by the export endpoint and come back by the import endpoint. -/

namespace Determinizer.Web

open Encoding (Utf8.encode)
open Json (Fits)

variable {settings : Settings} {r : Request} {b : Body} {v : Json} {c : Config} {header : String}

def imported (c : Config) : Json := .obj [("success", .bool true), ("nfa", c.toJson)]

theorem fits_imported (c : Config) : Fits 5 (imported c) := by
  simpa [imported] using c.fits_toJson 0

theorem read_imported [Host] (c : Config) : Json.read (imported c).compact = .ok (imported c) := by
  have hfloats : ∀ g, (imported c).mapFloats g = imported c := fun g => by
    simp [imported, Config.mapFloats_toJson]
  exact (Json.read_write_of_mapFloats ((fits_imported c).reading (by decide)) hfloats).2

theorem importNfa_of_holds [Host] (h : b.Holds (Utf8.encode c.dump.toList)) :
    importNfa b = .ok (imported c) := by
  have hload : Config.loadBytes (Utf8.encode c.dump.toList) = .ok c := by
    rw [Config.loadBytes_encode, Config.load_dump]
  have hdocument := Body.document_of_holds h
  simp only [importNfa, hdocument, hload, bind, Except.bind]
  rfl

theorem download_of_offers [Host] (hheader : disposition settings = .ok header) (hb : b.Offers v)
    (hc : Config.parse v = .ok c) :
    download settings b = .ok ⟨200, some "application/json", none, some header, c.dump⟩ := by
  have hnfa := Body.readNfa_of_parse hb hc
  simp only [download, exportNfa, hnfa, hheader, bind, Except.bind]
  rfl

theorem respond_export [Host] (hheader : disposition settings = .ok header)
    (hr : r.Posts .exportNfa b)
    (hb : b.Offers v) (hc : Config.parse v = .ok c) :
    respond settings r =
      .ok (some ⟨200, some "application/json", none, some header, c.dump⟩) := by
  rw [respond_of_posts hr, Endpoint.post, download_of_offers hheader hb hc]

theorem respond_import [Host] (hr : r.Posts .importNfa b)
    (hb : b.Holds (Utf8.encode c.dump.toList)) :
    respond settings r = .ok (some (jsonResponse 200 (imported c))) := by
  rw [respond_of_posts hr, Endpoint.post, importNfa_of_holds hb,
    answered_of_depth_le ((fits_imported c).depth_le.trans (by decide))]

/-- What is saved is loaded back, from a text as from its bytes, and likewise what is loaded. What
the export endpoint sends is loaded by the import endpoint, from a body as from an uploaded file. By
`Json.fits_of_read` all that was itself read from a text keeps within the limits of the reader. -/
theorem save_load_lossless [Host] {entries : List (String × Json)}
    (hfits : Fits Host.reading (.obj entries))
    (hc : Config.parse (.obj entries) = .ok c) :
    (∃ text, Config.dumpFields entries = .ok text ∧ Config.load text = .ok c ∧
      Config.loadBytes (Utf8.encode text.toList) = .ok c) ∧
    (∀ c : Config, Config.load c.dump = .ok c ∧
      Config.loadBytes (Utf8.encode c.dump.toList) = .ok c) ∧
    ∀ (settings : Settings) (header : String) (r : Request) (b : Body),
      disposition settings = .ok header → r.Posts .exportNfa b → b.Offers (.obj entries) →
      ∃ response, respond settings r = .ok (some response) ∧ response.status = 200 ∧
        response.body = c.dump ∧
        ∀ (settings' : Settings) (r' : Request) (b' : Body), r'.Posts .importNfa b' →
          b'.Holds (Utf8.encode response.body.toList) →
          ∃ response', respond settings' r' = .ok (some response') ∧ response'.status = 200 ∧
            Json.read response'.body =
              .ok (.obj [("success", .bool true), ("nfa", c.toJson)]) := by
  refine ⟨?_, fun c => ?_, ?_⟩
  · obtain ⟨text, hdump, hload⟩ := Config.load_dumpFields (mapError_eq_ok.1 hc) hfits
    exact ⟨text, hdump, hload, (Config.loadBytes_encode text).trans hload⟩
  · exact ⟨c.load_dump, (Config.loadBytes_encode c.dump).trans c.load_dump⟩
  · intro settings header r b hheader hr hb
    refine ⟨_, respond_export hheader hr hb hc, rfl, rfl, ?_⟩
    intro settings' r' b' hr' hb'
    exact ⟨_, respond_import hr' hb', rfl, read_imported c⟩

theorem disposition_default :
    disposition .default = .ok "attachment; filename=\"nfa-config.json\"" := by
  have hvalue : toString "attachment; filename=\"" ++ toString "nfa-config.json" ++ toString "\"" =
      "attachment; filename=\"nfa-config.json\"" := rfl
  have hheader : headerValue? "attachment; filename=\"nfa-config.json\"" =
      some "attachment; filename=\"nfa-config.json\"" := by
    simp [headerValue?]
  simp only [disposition, Settings.default, Option.getD_some, hvalue, hheader]

def awkward : List (String × Json) :=
  [ ("states", .strings ["\""]), ("alphabet", .strings ["\\", "\u2028"]),
    ("transitions", .arr [.obj [("state", .str "\""), ("symbol", .str "\\"),
      ("nextStates", .strings ["😀"]), ("note", .null)]]),
    ("initialState", .str "\ufeff"), ("acceptingStates", .strings [""]) ]

def awkwardConfig : Config :=
  ⟨["\""], ["\\", "\u2028"], [⟨"\"", "\\", ["😀"]⟩], "\ufeff", [""]⟩

def awkwardOffer : List (String × Json) := [("nfa", .obj awkward)]

theorem fits_awkward : Fits 4 (.obj awkward) := by
  simp [awkward]

theorem lengths_awkward_le :
    4 * (Json.obj [("nfa", .obj awkward)]).compact.toList.length ≤ maxBodyBytes ∧
      4 * awkwardConfig.dump.toList.length ≤ maxBodyBytes := by
  rw [Json.compact, Config.dump, Json.indented, String.toList_ofList, String.toList_ofList]
  decide +kernel

theorem offers_awkward :
    (Body.raw (Utf8.encode (Json.obj awkwardOffer).compact.toList)).Offers (.obj awkward) := by
  unfold awkwardOffer
  exact Body.offers_compact fits_awkward (by decide) (by simp [awkward])
    ((Encoding.Utf8.length_encode_le _).trans lengths_awkward_le.1)

theorem awkward_comes_back :
    (∃ text, Config.dumpFields awkward = .ok text ∧ Config.load text = .ok awkwardConfig) ∧
    ∃ response, respond .default (Request.json .exportNfa
        (Utf8.encode (Json.obj awkwardOffer).compact.toList)) = .ok (some response) ∧
      (∃ response', respond .default (Request.json .importNfa (Utf8.encode response.body.toList)) =
          .ok (some response') ∧ response'.status = 200 ∧ Json.read response'.body =
            .ok (.obj [("success", .bool true), ("nfa", awkwardConfig.toJson)])) ∧
      ∃ response', respond .default (Request.upload "nfa-config.json"
          (Utf8.encode response.body.toList)) = .ok (some response') ∧ response'.status = 200 ∧
            Json.read response'.body =
              .ok (.obj [("success", .bool true), ("nfa", awkwardConfig.toJson)]) := by
  have hconfig : Config.parse (.obj awkward) = .ok awkwardConfig := rfl
  obtain ⟨⟨text, hdump, hload, -⟩, -, hexport⟩ :=
    save_load_lossless (fits_awkward.reading (by decide)) hconfig
  obtain ⟨response, hresponse, -, hbody, himport⟩ :=
    hexport .default _ _ _ disposition_default (Request.posts_json .exportNfa _) offers_awkward
  refine ⟨⟨text, hdump, hload⟩, response, hresponse, ?_, ?_⟩
  · refine himport .default _ _ (Request.posts_json .importNfa _) (.raw ?_)
    rw [hbody]
    exact (Encoding.Utf8.length_encode_le _).trans lengths_awkward_le.2
  · exact himport .default _ _ (Request.posts_upload "nfa-config.json" _)
      (.upload "nfa-config.json" (by decide +kernel))

end Determinizer.Web
