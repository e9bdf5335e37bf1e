import Determinizer.Proofs.Command.Run
import Determinizer.Proofs.Config.Rejection
import Determinizer.Proofs.Web.Exchange

/-! What the import endpoint and the command make of documents that are no configurations. Both tell
a rejection from a limit of the reader. A rejection is a refused request and a reported error; a
limit that was met breaks the request off with status 500, and the command without a report. -/

namespace Determinizer

open Encoding (Utf8.encode)
open Json (Exceeds Limit maxDigits)
open Command (Folder Invocation Usage)
open Web (Body Request)

variable {settings : Settings} {bytes : List UInt8}

namespace Web

variable {r : Request} {b : Body} {outcome : Except LoadError Config}

def importResponse : Except LoadError Config → Response
  | .ok c => jsonResponse 200 (.obj [("success", .bool true), ("nfa", c.toJson)])
  | .error (.rejected rejection) => failed (.refused (.rejected rejection))
  | .error (.limit l) => failed (.broken (.limit l))

theorem respond_import_document [Host] (hr : r.Posts .importNfa b) (hb : b.document = .ok bytes) :
    respond settings r = .ok (some (importResponse (Config.loadBytes bytes))) := by
  have himport : answered (importNfa b) = importResponse (Config.loadBytes bytes) := by
    simp only [importNfa, hb, bind, Except.bind]
    cases Config.loadBytes bytes with
    | ok c => exact answered_of_depth_le ((fits_imported c).depth_le.trans (by decide))
    | error e => cases e <;> rfl
  rw [respond_of_posts hr, ← himport]
  rfl

theorem status_importResponse_iff : (importResponse outcome).status = 200 ∨
    (importResponse outcome).status = 400 ↔ Config.Reported outcome := by
  rw [Config.reported_iff]
  match outcome with
  | .ok c => exact iff_of_true (.inl rfl) nofun
  | .error (.rejected rejection) => exact iff_of_true (.inr rfl) nofun
  | .error (.limit l) =>
    have hstatus : (importResponse (.error (.limit l))).status = 500 := rfl
    rw [hstatus]
    exact iff_of_false (by decide) (not_not_intro ⟨l, rfl⟩)

end Web

namespace Command

variable {i : Invocation} {folder : Folder} {args : List String}

structure Invocation.Reads (i : Invocation) (folder : Folder) (bytes : List UInt8) : Prop where
  colors : ¬ (i.switches.noColor ∧ i.switches.forceColor)
  path : hasNull i.path = false
  input : folder.read i.path = .ok bytes

def Invocation.Unusable [Host] (i : Invocation) (settings : Settings) (bytes : List UInt8) : Prop :=
  ∀ c, Config.loadBytes bytes = .ok c →
    c.checkLabels ((i.separator settings).toOption.getD "") ≠ .ok ()

namespace Invocation

theorem Reads.product_eq [Host] (h : i.Reads folder bytes) (hbytes : i.Unusable settings bytes) :
    (∃ l, Config.loadBytes bytes = .error (.limit l) ∧
      i.product settings (folder.read i.path) = .error (.limit l)) ∨
    Config.Reported (Config.loadBytes bytes) ∧
      ∃ e, i.product settings (folder.read i.path) = .ok (.error e) := by
  rw [Config.reported_iff]
  unfold product
  rw [if_neg h.colors, h.path, if_neg Bool.false_ne_true, h.input]
  dsimp only
  match hload : Config.loadBytes bytes with
  | .error (.limit l) => exact .inl ⟨l, rfl, rfl⟩
  | .error (.rejected r) => exact .inr ⟨nofun, _, rfl⟩
  | .ok c =>
    dsimp only
    cases hlabels : c.checkLabels ((i.separator settings).toOption.getD "") with
    | ok _ => exact absurd hlabels (hbytes c hload)
    | error fault => exact .inr ⟨nofun, _, rfl⟩

theorem run_of_product_crash [Host] {crash : Crash}
    (hproduct : i.product settings (folder.read i.path) = .error crash) :
    i.run settings folder = .error crash := by
  simp only [run, hproduct, bind, Except.bind]

theorem Reads.failure_iff [Host] (h : i.Reads folder bytes) (hbytes : i.Unusable settings bytes) :
    (∃ e, i.run settings folder = (i.failure e).map fun report => (report, folder)) ↔
      Config.Reported (Config.loadBytes bytes) := by
  rcases h.product_eq hbytes with ⟨l, hload, hproduct⟩ | ⟨hreported, e, hproduct⟩
  · refine iff_of_false ?_ fun h => Config.reported_iff.1 h ⟨l, hload⟩
    -- a limit that was met is no failure, not even where failures are raised
    rintro ⟨e, hrun⟩
    rw [run_of_product_crash hproduct, failure] at hrun
    split at hrun <;> cases hrun
  · exact iff_of_true ⟨e, run_of_product_error hproduct⟩ hreported

end Invocation
end Command

/-- A text or bytes give a configuration just where they are one, and what gives none is rejected
just where reading it does not meet a limit. It meets none where no more than `maxDigits` digits
stand in a row and no more brackets are opened than may be nested. Just the documents that are
loaded or rejected are answered with status 200 or 400 when they are sent to be imported, and just
these are reported by the command when it cannot use them. -/
theorem unusable_reported_iff [Host] (source : Config.Source) (bytes : List UInt8)
    (settings : Settings) :
    (∀ c, source.load = .ok c ↔
      ∃ s ∈ source.characters?, ∃ v, Json.read (String.ofList s) = .ok v ∧ Config.ofJson v = .ok c) ∧
    (Config.Reported source.load ↔ ¬ ∃ l, source.Meets l) ∧
    ((∀ s ∈ source.characters?, ¬ Exceeds Host.reading s) → Config.Reported source.load) ∧
    (∀ (r : Request) (b : Body), r.Posts .importNfa b → b.document = .ok bytes →
      ∃ response, Web.respond settings r = .ok (some response) ∧
        (response.status = 200 ∨ response.status = 400 ↔
          Config.Reported (Config.loadBytes bytes))) ∧
    ∀ (folder : Folder) (args : List String) (i : Invocation), Usage.of args = .invocation i →
      i.Reads folder bytes → i.Unusable settings bytes →
      ((∃ e, Command.run settings folder args =
          (i.failure e).map fun report => (report, folder)) ↔
        Config.Reported (Config.loadBytes bytes)) := by
  refine ⟨fun c => Config.Source.load_eq_ok_iff, Config.Source.reported_load_iff,
    fun hexceeds => ?_, fun r b hr hb => ?_, ?_⟩
  · refine Config.Source.reported_load_iff.2 fun ⟨l, hmeets⟩ => ?_
    obtain ⟨s, hs, h⟩ := Config.Source.exceeds_of_meets hmeets
    exact hexceeds s hs h
  · exact ⟨_, Web.respond_import_document hr hb, Web.status_importResponse_iff⟩
  · intro folder args i hargs hreads hbytes
    have hrun : Command.run settings folder args = i.run settings folder := by
      rw [Command.run, hargs]
    rw [hrun]
    exact hreads.failure_iff hbytes

def singleFile (bytes : List UInt8) : Folder := ⟨[(["nfa.json"], bytes)]⟩

def singleInvocation : Invocation := ⟨"nfa.json", none, .setting, ⟨false, false, false⟩⟩

theorem reads_single (bytes : List UInt8) : singleInvocation.Reads (singleFile bytes) bytes where
  colors := by decide
  path := by decide
  input := Folder.read_of_isPlain (by decide) rfl

theorem usage_single : Usage.of ["nfa.json"] = .invocation singleInvocation := by decide +kernel

theorem emptyArray_reported :
    Config.Reported (Config.load "[]") ∧
    (∃ response, Web.respond .default (.json .importNfa (Utf8.encode "[]".toList)) =
        .ok (some response) ∧ (response.status = 200 ∨ response.status = 400)) ∧
    ∃ e, Command.run .default (singleFile (Utf8.encode "[]".toList)) ["nfa.json"] =
      (singleInvocation.failure e).map fun report =>
        (report, singleFile (Utf8.encode "[]".toList)) := by
  obtain ⟨-, -, hload, himport, hcommand⟩ :=
    unusable_reported_iff (.text "[]") (Utf8.encode "[]".toList) .default
  have hshort : ∀ s ∈ (Config.Source.text "[]").characters?, ¬ Exceeds Host.reading s := by
    rintro s hs
    cases hs
    exact Json.not_exceeds_of_length_le (by decide) (by decide)
  have hreported : Config.Reported (Config.load "[]") := hload hshort
  have hbytes : Config.Reported (Config.loadBytes (Utf8.encode "[]".toList)) := by
    rw [Config.loadBytes_encode]
    exact hreported
  have hunusable : singleInvocation.Unusable .default (Utf8.encode "[]".toList) := by
    intro c hc
    rw [Config.loadBytes_encode] at hc
    cases hc
  have hdocument : (Body.raw (Utf8.encode "[]".toList)).document = .ok _ :=
    Body.document_of_holds (.raw (by decide))
  refine ⟨hreported, ?_, ?_⟩
  · obtain ⟨response, hresponse, hstatus⟩ :=
      himport _ _ (Request.posts_json .importNfa _) hdocument
    exact ⟨response, hresponse, hstatus.2 hbytes⟩
  · exact (hcommand _ _ _ usage_single (reads_single _) hunusable).2 hbytes

theorem unreported_of_limit [Host] {text : String} {l : Limit}
    (hread : Json.read text = .error (.limit l))
    (hsize : 4 * text.toList.length ≤ Web.maxBodyBytes) :
    Config.load text = .error (.limit l) ∧ ¬ Config.Reported (Config.load text) ∧
    (∃ response, Web.respond settings (.json .importNfa (Utf8.encode text.toList)) =
        .ok (some response) ∧ response.status = 500) ∧
    Command.run settings (singleFile (Utf8.encode text.toList)) ["nfa.json"] =
      .error (.limit l) := by
  have hload : Config.load text = .error (.limit l) := Config.load_eq_limit_iff.2 hread
  have hbytes := (Config.loadBytes_encode text).trans hload
  refine ⟨hload, ?_, ?_, ?_⟩
  · exact fun h => Config.reported_iff.1 h ⟨_, hload⟩
  · have hdocument : (Body.raw (Utf8.encode text.toList)).document = .ok _ :=
      Body.document_of_holds (.raw ((Encoding.Utf8.length_encode_le _).trans hsize))
    refine ⟨_, Web.respond_import_document (Request.posts_json .importNfa _) hdocument, ?_⟩
    rw [hbytes]
    rfl
  · have hunusable : singleInvocation.Unusable settings (Utf8.encode text.toList) := by
      intro c hc
      cases hbytes.symm.trans hc
    rw [Command.run, usage_single]
    rcases (reads_single _).product_eq hunusable with ⟨l', hl, hproduct⟩ | ⟨hreported, -⟩
    · cases hbytes.symm.trans hl
      exact Invocation.run_of_product_crash hproduct
    · exact absurd ⟨_, hbytes⟩ (Config.reported_iff.1 hreported)

def longInteger : String := String.ofList (List.replicate 4301 '1')

def deepBrackets : String := String.ofList (List.replicate 5000 '[')

theorem read_longInteger [Host] : Json.read longInteger = .error (.limit (.digits 4301)) := by
  have hones : ∀ n, ∀ c ∈ List.replicate n '1', Json.isDigit c = true := by
    intro n c hc
    rw [List.eq_of_mem_replicate hc]
    rfl
  have hinteger : Json.IsIntegerPart (List.replicate 4301 '1') :=
    .inr ⟨'1', List.replicate 4300 '1', List.replicate_succ, rfl, by decide, hones _⟩
  have hlength : maxDigits < (List.replicate 4301 '1').length := by
    rw [List.length_replicate]
    decide
  have hread := Json.read_of_long hinteger (r := []) (by simp [Json.Ends]) hlength false
  rw [List.length_replicate, List.append_nil] at hread
  exact hread

theorem limits_unreported :
    (Config.load longInteger = .error (.limit (.digits 4301)) ∧
      ¬ Config.Reported (Config.load longInteger) ∧
      (∃ response, Web.respond .default (.json .importNfa (Utf8.encode longInteger.toList)) =
          .ok (some response) ∧ response.status = 500) ∧
      Command.run .default (singleFile (Utf8.encode longInteger.toList)) ["nfa.json"] =
        .error (.limit (.digits 4301))) ∧
    Config.load deepBrackets = .error (.limit (.depth .array)) ∧
      ¬ Config.Reported (Config.load deepBrackets) ∧
      (∃ response, Web.respond .default (.json .importNfa (Utf8.encode deepBrackets.toList)) =
          .ok (some response) ∧ response.status = 500) ∧
      Command.run .default (singleFile (Utf8.encode deepBrackets.toList)) ["nfa.json"] =
        .error (.limit (.depth .array)) := by
  have hlength : ∀ n c, (String.ofList (List.replicate n c)).toList.length = n := fun n c => by
    rw [String.toList_ofList, List.length_replicate]
  have hlong : longInteger.toList.length = 4301 := hlength 4301 '1'
  have hdeep : deepBrackets.toList.length = 5000 := hlength 5000 '['
  have hread : Json.read deepBrackets = .error (.limit (.depth .array)) := by
    have hdepth : Host.reading < 5000 := by decide
    have hread := Json.read_of_deep hdepth []
    rw [List.append_nil] at hread
    exact hread
  refine ⟨unreported_of_limit read_longInteger ?_, unreported_of_limit hread ?_⟩
  · rw [hlong]
    decide
  · rw [hdeep]
    decide

end Determinizer
