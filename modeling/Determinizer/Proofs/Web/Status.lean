import Determinizer.Proofs.Config.Completeness
import Determinizer.Proofs.Json.Limits
import Determinizer.Proofs.Web.Conversion
import Determinizer.Proofs.Web.Exchange
import Determinizer.Proofs.Web.Relayout

/-! The status of what converting and exporting answer. A request breaks off only in reading its
body, where brackets are nested too deep; all that is done with the value after that either goes on
or refuses it. So the status tells whether the body holds what was asked for. -/

namespace Determinizer.Web

open Encoding (Utf8.encode)

variable {α β : Type} {settings : Settings} {delimiter : String} {b : Body} {c : Config}

def Body.Contains [Host] (b : Body) (c : Config) : Prop :=
  ∃ s ∈ b.characters?, ∃ entries v, Json.readChars s = .ok (.obj entries) ∧
    entries.lookup "nfa" = some v ∧ Config.ofJson v = .ok c

def Body.TooDeep [Host] (b : Body) : Prop :=
  ∃ s ∈ b.characters?, ∃ container, Json.readChars s = .error (.limit (.depth container))

structure Response.Decides (response : Response) (right tooDeep : Prop) : Prop where
  ok : response.status = 200 ↔ right
  broken : response.status = 500 ↔ tooDeep
  refused : response.status = 400 ↔ ¬ right ∧ ¬ tooDeep

def Breaks (x : Except Failure α) : Prop := ∃ l, x = .error (.broken l)

theorem breaks_bind_iff {x : Except Failure α} {f : α → Except Failure β}
    (hf : ∀ a, x = .ok a → ¬ Breaks (f a)) : Breaks (x >>= f) ↔ Breaks x := by
  cases x with
  | error e => exact ⟨fun ⟨l, h⟩ => ⟨l, by cases h; rfl⟩, fun ⟨l, h⟩ => ⟨l, by cases h; rfl⟩⟩
  | ok a => exact iff_of_false (hf a rfl) fun ⟨_, h⟩ => by cases h

theorem not_breaks_refuse {ε : Type} (x : Except ε α) (g : ε → Refusal) :
    ¬ Breaks (x.mapError fun e => .refused (g e)) := by
  rintro ⟨l, h⟩
  cases x <;> cases h

theorem decides_of_outcome {x : Except Failure α} {response : Response} {right tooDeep : Prop}
    (hok : ∀ a, x = .ok a → response.status = 200)
    (hfailed : ∀ f, x = .error f → response.status = f.status)
    (hright : (∃ a, x = .ok a) ↔ right) (htooDeep : Breaks x ↔ tooDeep) :
    response.Decides right tooDeep := by
  rw [← hright, ← htooDeep]
  match x with
  | .ok a =>
    have hstatus := hok a rfl
    constructor <;> simp [hstatus, Breaks]
  | .error (.refused refusal) =>
    have hstatus := hfailed _ rfl
    constructor <;> simp [hstatus, Failure.status, Breaks]
  | .error (.broken l) =>
    have hstatus := hfailed _ rfl
    constructor <;> simp [hstatus, Failure.status, Breaks]

theorem Failure.ofRead_eq_broken_iff {e : Json.ReadError} :
    (∃ l, ofRead e = .broken l) ↔ ∃ container, e = .limit (.depth container) := by
  match e with
  | .limit (.depth container) => exact iff_of_true ⟨_, rfl⟩ ⟨container, rfl⟩
  | .limit (.digits count) => exact iff_of_false nofun nofun
  | .malformed problem place => exact iff_of_false nofun nofun

theorem Body.Offers.withinLimit [Host] {v : Json} (h : b.Offers v) : b.WithinLimit := by
  obtain ⟨entries, hobject, -⟩ := h
  cases b with
  | form charset parts => trivial
  | raw bytes =>
    obtain ⟨w, hread, -⟩ := bind_eq_ok.1 hobject
    obtain ⟨bytes', hsize, -⟩ := bind_eq_ok.1 hread
    rw [checkSize] at hsize
    split at hsize
    · cases hsize
    · next hle => exact Nat.not_lt.1 hle

theorem Body.breaks_read_iff [Host] (hb : b.WithinLimit) : Breaks b.read ↔ b.TooDeep := by
  rw [Breaks, TooDeep]
  cases hs : b.characters? with
  | none =>
    obtain ⟨refusal, hread⟩ := read_of_no_characters hb hs
    simp [hread]
  | some s =>
    rw [read_of_characters hb hs]
    cases hread : Json.readChars s with
    | error e => simpa [Except.mapError, hread] using Failure.ofRead_eq_broken_iff
    | ok v => simp [Except.mapError, hread]

theorem Body.readNfa_eq_ok_iff [Host] (hb : b.WithinLimit) : b.readNfa = .ok c ↔ b.Contains c := by
  constructor
  · intro h
    obtain ⟨w, hobject, hfield⟩ := bind_eq_ok.1 h
    obtain ⟨v, hread, hv⟩ := bind_eq_ok.1 hobject
    obtain ⟨s, hs, hchars⟩ := (read_eq_ok_iff hb).1 hread
    cases v with
    | obj entries =>
      cases hv
      cases hlookup : entries.lookup "nfa" with
      | none =>
        rw [Json.field?, hlookup] at hfield
        cases hfield
      | some v =>
        rw [readNfa_of_offers ⟨entries, hobject, hlookup⟩] at h
        split at h
        · exact ⟨s, hs, entries, v, hchars, hlookup, mapError_eq_ok.1 (mapError_eq_ok.1 h)⟩
        · cases h
    | _ => cases hv
  · rintro ⟨s, hs, entries, v, hchars, hlookup, hc⟩
    have hread := (read_eq_ok_iff hb).2 ⟨s, hs, hchars⟩
    have hobject : b.readObject = .ok (.obj entries) := by
      rw [readObject, hread]
      rfl
    exact readNfa_of_parse ⟨entries, hobject, hlookup⟩ (mapError_eq_ok.2 hc)

theorem Body.breaks_readNfa_iff [Host] (hb : b.WithinLimit) : Breaks b.readNfa ↔ b.TooDeep := by
  rw [← breaks_read_iff hb]
  have hobject : Breaks b.readObject ↔ Breaks b.read := by
    refine breaks_bind_iff fun v _ => ?_
    rintro ⟨l, h⟩
    cases v <;> cases h
  rw [← hobject]
  refine breaks_bind_iff fun v _ => ?_
  split
  · rintro ⟨l, h⟩
    cases h
  · split
    · exact not_breaks_refuse _ _
    · rintro ⟨l, h⟩
      cases h

theorem decides_convert [Host] (hsettings : settings.delimiter = some delimiter)
    (hb : b.WithinLimit) :
    (Endpoint.post settings b .convert).Decides
      (∃ c, b.Contains c ∧ c.checkLabels delimiter = .ok ()) b.TooDeep := by
  refine decides_of_outcome (x := convert settings b) ?_ ?_ ?_ ?_
  · intro answer h
    obtain ⟨c, -, -, rfl⟩ := (convert_eq_ok_iff hsettings).1 h
    rw [Endpoint.post, h, answered_conversion]
    rfl
  · intro f h
    rw [Endpoint.post, h]
    rfl
  · simp only [convert_eq_ok_iff hsettings, Body.readNfa_eq_ok_iff hb]
    constructor
    · rintro ⟨_, c, hc, hlabels, -⟩
      exact ⟨c, hc, hlabels⟩
    · rintro ⟨c, hc, hlabels⟩
      exact ⟨_, c, hc, hlabels, rfl⟩
  · rw [convert_eq_bind hsettings, ← Body.breaks_readNfa_iff hb]
    refine breaks_bind_iff fun c _ => ?_
    rw [breaks_bind_iff]
    · exact not_breaks_refuse _ _
    · rintro _ - ⟨l, h⟩
      cases h

theorem disposition_of_default (h : settings.exportFilename = Settings.default.exportFilename) :
    disposition settings = disposition .default := by
  rw [disposition, disposition, h]

theorem download_eq_bind [Host] (h : settings.exportFilename = Settings.default.exportFilename)
    (b : Body) : download settings b = (do
      let c ← b.readNfa
      return {
        status := 200
        contentType := some "application/json"
        allow := none
        contentDisposition := some "attachment; filename=\"nfa-config.json\""
        body := c.dump }) := by
  simp only [download, exportNfa, disposition_of_default h, disposition_default]
  cases b.readNfa <;> rfl

theorem decides_export [Host] (h : settings.exportFilename = Settings.default.exportFilename)
    (hb : b.WithinLimit) :
    (Endpoint.post settings b .exportNfa).Decides (∃ c, b.Contains c) b.TooDeep := by
  have hdownload := download_eq_bind h b
  refine decides_of_outcome (x := download settings b) ?_ ?_ ?_ ?_
  · intro response hresponse
    rw [Endpoint.post, hresponse]
    rw [hdownload] at hresponse
    obtain ⟨c, -, hc⟩ := bind_eq_ok.1 hresponse
    cases hc
    rfl
  · intro f hf
    rw [Endpoint.post, hf]
    rfl
  · simp only [hdownload, bind_eq_ok, Body.readNfa_eq_ok_iff hb]
    constructor
    · rintro ⟨_, c, hc, -⟩
      exact ⟨c, hc⟩
    · rintro ⟨c, hc⟩
      exact ⟨_, c, hc, rfl⟩
  · rw [hdownload, ← Body.breaks_readNfa_iff hb]
    refine breaks_bind_iff fun c _ => ?_
    rintro ⟨l, h⟩
    cases h

theorem Body.TooDeep.opens [Host] (h : b.TooDeep) :
    ∃ s ∈ b.characters?, Host.reading < s.countP Json.opens := by
  obtain ⟨s, hs, container, hread⟩ := h
  exact ⟨s, hs, Json.exceeded_of_readChars hread⟩

/-- A body is answered with status 500 just if its brackets are nested too deep, and otherwise with
200 or 400 by whether it holds a configuration, which for a conversion must have labels that can be
told apart. What is done with a value after its shape was checked finds all that it needs. -/
theorem status_decided_by_body [Host] (hsettings : settings.delimiter = some delimiter)
    (hb : b.WithinLimit) :
    (∀ r : Request, r.Posts .convert b → ∃ response, respond settings r = .ok (some response) ∧
      response.Decides (∃ c, b.Contains c ∧ c.checkLabels delimiter = .ok ()) b.TooDeep) ∧
    (settings.exportFilename = Settings.default.exportFilename →
      ∀ r : Request, r.Posts .exportNfa b → ∃ response, respond settings r = .ok (some response) ∧
        response.Decides (∃ c, b.Contains c) b.TooDeep) ∧
    (b.TooDeep → ∃ s ∈ b.characters?, Host.reading < s.countP Json.opens) ∧
    ∀ v c, Config.ofJson v = .ok c → c.Served delimiter v ∧ c.Served delimiter c.toJson := by
  refine ⟨fun r hr => ?_, fun hname r hr => ?_, Body.TooDeep.opens, fun v c hc => ?_⟩
  · exact ⟨_, respond_of_posts hr, decides_convert hsettings hb⟩
  · exact ⟨_, respond_of_posts hr, decides_export hname hb⟩
  · exact ⟨Config.served_of_ofJson delimiter hc,
      Config.served_of_ofJson delimiter c.ofJson_toJson⟩

def brackets : List UInt8 := Utf8.encode (List.replicate 1001 '[')

theorem withinLimit_brackets : (Body.raw brackets).WithinLimit := by
  refine (Encoding.Utf8.length_encode_le _).trans ?_
  rw [List.length_replicate]
  decide

theorem tooDeep_brackets : (Body.raw brackets).TooDeep := by
  have hread : Json.readChars (List.replicate 1001 '[') = .error (.limit (.depth .array)) := by
    have hdepth : Host.reading < 1001 := by decide
    have hread := Json.readChars_of_read_limit (Json.read_of_deep hdepth [])
    rw [String.toList_ofList, List.append_nil] at hread
    exact hread
  exact ⟨_, Body.characters?_encode_ascii (s := List.replicate 999 '[') (by decide) (by decide),
    .array, hread⟩

theorem statuses_of_bodies :
    (∃ response, respond .default (.json .convert
        (Utf8.encode (Json.obj [("nfa", .obj escaped)]).compact.toList)) = .ok (some response) ∧
      response.status = 200) ∧
    escapedConfig.Served "" (.obj escaped) ∧
    (∃ response, respond .default (.json .convert
        (Utf8.encode (Json.obj awkwardOffer).compact.toList)) = .ok (some response) ∧
      response.status = 400) ∧
    (∃ response, respond .default (.json .exportNfa
        (Utf8.encode (Json.obj awkwardOffer).compact.toList)) = .ok (some response) ∧
      response.status = 200) ∧
    (∃ response, respond .default (.json .convert brackets) = .ok (some response) ∧
      response.status = 500) ∧
    ∃ response, respond .default (.json .exportNfa brackets) = .ok (some response) ∧
      response.status = 500 := by
  have hdelimiter : Settings.default.delimiter = some "" := rfl
  have hescaped : Config.parse (.obj escaped) = .ok escapedConfig := rfl
  have hawkward : Config.parse (.obj awkward) = .ok awkwardConfig := rfl
  have hescapedLimit := offers_escaped.withinLimit
  have hawkwardLimit := offers_awkward.withinLimit
  have hescapedContains := (Body.readNfa_eq_ok_iff hescapedLimit).1
    (Body.readNfa_of_parse offers_escaped hescaped)
  have hawkwardRead := Body.readNfa_of_parse offers_awkward hawkward
  have hawkwardContains := (Body.readNfa_eq_ok_iff hawkwardLimit).1 hawkwardRead
  obtain ⟨hconvertEscaped, -, -, hserved⟩ := status_decided_by_body hdelimiter hescapedLimit
  obtain ⟨hconvertAwkward, hexportAwkward, -⟩ := status_decided_by_body hdelimiter hawkwardLimit
  obtain ⟨hconvertDeep, hexportDeep, -⟩ := status_decided_by_body hdelimiter withinLimit_brackets
  refine ⟨?_, (hserved _ _ (mapError_eq_ok.1 hescaped)).1, ?_, ?_, ?_, ?_⟩
  · obtain ⟨response, hresponse, h⟩ := hconvertEscaped _ (Request.posts_json .convert _)
    exact ⟨response, hresponse, h.ok.2 ⟨_, hescapedContains, rfl⟩⟩
  · obtain ⟨response, hresponse, h⟩ := hconvertAwkward _ (Request.posts_json .convert _)
    refine ⟨response, hresponse, h.refused.2 ⟨?_, ?_⟩⟩
    · rintro ⟨c, hc, hlabels⟩
      cases hawkwardRead.symm.trans ((Body.readNfa_eq_ok_iff hawkwardLimit).2 hc)
      cases hlabels
    · rw [← Body.breaks_readNfa_iff hawkwardLimit]
      rintro ⟨l, hl⟩
      cases hawkwardRead.symm.trans hl
  · obtain ⟨response, hresponse, h⟩ := hexportAwkward rfl _ (Request.posts_json .exportNfa _)
    exact ⟨response, hresponse, h.ok.2 ⟨_, hawkwardContains⟩⟩
  · obtain ⟨response, hresponse, h⟩ := hconvertDeep _ (Request.posts_json .convert _)
    exact ⟨response, hresponse, h.broken.2 tooDeep_brackets⟩
  · obtain ⟨response, hresponse, h⟩ := hexportDeep rfl _ (Request.posts_json .exportNfa _)
    exact ⟨response, hresponse, h.broken.2 tooDeep_brackets⟩

end Determinizer.Web
