import Determinizer.Proofs.Command.Run
import Determinizer.Proofs.Dfa.Document
import Determinizer.Proofs.Editor.Load
import Determinizer.Proofs.Json.Limits
import Determinizer.Proofs.Web.Conversion

/-! The ways to convert a document agree. The endpoint, the command and the editor look at it in
code of their own, but each compares with the same acceptance, and where that gives a configuration
all of them have the table of that configuration. The endpoint gets the document as part of another,
which may be too large for it or nested too deep where the document alone is not. -/

namespace Determinizer

open Encoding (Utf8.encode)
open Json (Fits maxDigits)
open Command (Folder Invocation Usage)
open Web (Body Request longText tooDeeplyNested tooLarge)

/-- A value is written in a text, and no surrogate that stands alone: the value is the same whatever
is read in the place of one. -/
def Json.Denotes [Host] (text : String) (v : Json) : Prop :=
  ∀ lone, @Json.read (Host.withLone lone) text = .ok v

theorem Json.Denotes.read [Host] {text : String} {v : Json} (h : Json.Denotes text v) :
    Json.read text = .ok v :=
  h Host.lone

theorem Json.denotes_compact [Host] {v : Json} (hv : Fits Host.reading v)
    (hfloats : ∀ g, v.mapFloats g = v) : Json.Denotes v.compact v :=
  fun lone => (@Json.read_write_of_mapFloats (Host.withLone lone) v hv hfloats).2

/-- A document sent as a value to the endpoint, read by the command from a file, and loaded into an
editor, with the same delimiter, each in a call that can read it. Either the response, the written
file and the editor hold the table of one configuration, whose text is printed first; or all three
report the same, unless the value counts as false, and neither the files nor the editor change. The
null device keeps no table, and the counts beside the table in a response may be too long to be
read. -/
theorem conversions_agree {text delimiter out : String} {v : Json}
    {entries : List (String × Json)} {site settings : Settings} {r : Request} {b : Body}
    {folder : Folder} {args : List String} {i : Invocation} {e : Editor}
    (hv : entries.lookup "nfa" = some v) (hsize : b.WithinLimit)
    (hsite : site.delimiter = some delimiter) (hr : r.Posts .convert b)
    (hargs : Usage.of args = .invocation i) (hi : i.Ready settings folder text delimiter out)
    (he : e.delimiter = delimiter) :
    (∃ c table, Config.accept delimiter v = .ok c ∧ c.determinize delimiter = table ∧
      (∀ [Host], b.Denotes (.obj entries) →
        ∃ answer, Web.respond site r = .ok (some (Web.jsonResponse 200 answer)) ∧
          answer.field? "dfa_table" = some table.toJson ∧
          ((∀ n ∈ (Web.Conversion.of c delimiter).counts, n < 10 ^ maxDigits) →
            Json.read answer.compact = .ok answer)) ∧
      (∀ [Host], Json.Denotes text v →
        ∃ report folder', Command.run settings folder args = .ok (report, folder') ∧
          report.exit = 0 ∧ (∃ rest, report.stdout = table.text c.alphabet ++ rest) ∧
          (Command.isNullDevice out = false →
            ∃ written : String, folder'.read out = .ok (Utf8.encode written.toList) ∧
              Json.read written = .ok table.toJson)) ∧
      ∀ [Host], Json.Denotes text v → ∀ s ∈ Editor.loads text, ∃ e' e'',
        e.run [s, .convert] = [(.ok (.config c), e'), (.ok (.table table), e'')] ∧
          e''.table = table) ∨
    ∃ o, Config.accept delimiter v = .error o ∧
      (∀ [Host], b.Denotes (.obj entries) →
        Web.respond site r = .ok (some (Web.jsonResponse 400 (.obj [("error",
          .str (if v.truthy then o.message else Web.Refusal.missingNfa.message))])))) ∧
      (∀ [Host], Json.Denotes text v → Command.run settings folder args =
        (if i.switches.traceback then .error (.raised (.ofObjection o))
        else .ok (⟨1, "", some (Command.lineEnded s!"CommandError: {o.message}")⟩, folder))) ∧
      ∀ [Host], Json.Denotes text v → ∀ s ∈ Editor.loads text,
        e.step s = (.error (.ofObjection o), e) ∧ (EditorError.ofObjection o).message = o.message := by
  subst he
  have hrun : ∀ [Host], Command.run settings folder args = i.run settings folder := by
    intro _
    rw [Command.run, hargs]
  -- each way is decided by the acceptance of the value; what remains is to collect the answers
  cases haccept : Config.accept e.delimiter v with
  | ok c =>
    refine .inl ⟨c, _, rfl, rfl, fun hbody => ?_, fun htext => ?_, fun htext s hs => ?_⟩
    · have hanswer := Web.respond_convert_accepted hsite hr (hbody.offers hsize hv) haccept
      exact ⟨_, hanswer, rfl, Web.Conversion.read_compact c e.delimiter⟩
    · obtain ⟨report, folder', hreport, hexit, hstdout, hwrite⟩ :=
        hi.run_accepted htext.read haccept
      refine ⟨report, folder', hrun.trans hreport, hexit, hstdout, fun hdevice => ?_⟩
      have hfile := Folder.read_write hwrite hdevice
      exact ⟨_, hfile, c.toNfa.read_dump_determinize e.delimiter⟩
    · exact ⟨_, _, Editor.run_loads_convert hs htext.read haccept, rfl⟩
  | error o =>
    refine .inr ⟨o, rfl, fun hbody => ?_, fun htext => ?_, fun htext s hs => ?_⟩
    · exact Web.respond_convert_objected hsite hr (hbody.offers hsize hv) haccept
    · exact hrun.trans (hi.run_objected htext.read haccept)
    · exact ⟨Editor.step_loads_objected hs htext.read haccept, EditorError.message_ofObjection o⟩

def noted (note : Json) : List (String × Json) :=
  [ ("note", note), ("initialState", .str "q0"), ("states", .strings []),
    ("alphabet", .strings ["a"]), ("acceptingStates", .strings ["q1"]),
    ("transitions", .arr
      [ .obj [("state", .str "q0"), ("symbol", .str "a"), ("nextStates", .strings ["q1"])],
        .obj [("state", .str "q0"), ("symbol", .str "a"), ("nextStates", .strings ["q0"])] ]) ]

def twoEntriesConfig : Config :=
  ⟨[], ["a"], [⟨"q0", "a", ["q1"]⟩, ⟨"q0", "a", ["q0"]⟩], "q0", ["q1"]⟩

def twoEntriesTable : Table :=
  [⟨"q0", false, [("a", "q0=>q1")]⟩, ⟨"q0=>q1", true, [("a", "q0=>q1")]⟩]

section Noted

variable (note : Json)

def notedText : String := (Json.obj (noted note)).compact

def notedBody : List UInt8 := Utf8.encode (Json.obj [("nfa", .obj (noted note))]).compact.toList

def notedFolder : Folder := ⟨[(["nfa.json"], Utf8.encode (notedText note).toList)]⟩

def notedArguments : List String := ["nfa.json", "--output=dfa.json"]

def notedInvocation : Invocation :=
  ⟨"nfa.json", some "dfa.json", .setting, ⟨false, false, false⟩⟩

variable {note}

theorem fits_noted {depth : Nat} (h : Fits (depth + 3) note) :
    Fits (depth + 4) (.obj (noted note)) := by
  simp [noted, h]

theorem mapFloats_noted (h : ∀ g, note.mapFloats g = note) (g : Float → Float) :
    (Json.obj (noted note)).mapFloats g = .obj (noted note) := by
  simp [noted, h]

theorem accept_noted : Config.accept "=>" (.obj (noted note)) = .ok twoEntriesConfig := rfl

theorem determinize_twoEntriesConfig : twoEntriesConfig.determinize "=>" = twoEntriesTable := by cbv

theorem usage_notedArguments : Usage.of notedArguments = .invocation notedInvocation := by
  decide +kernel

theorem ready_noted (note : Json) (delimiter : String) :
    notedInvocation.Ready ⟨some delimiter, none⟩ (notedFolder note) (notedText note) delimiter
      "dfa.json" where
  separator := rfl
  colors := by decide
  path := by decide
  input := Folder.read_of_isPlain (by decide) rfl
  output := rfl
  outputPath := by decide
  writable _ := ⟨_, Folder.write_of_isPlain (by decide) fun hdirectory => by cases hdirectory.2⟩

end Noted

theorem twoEntries_agree :
    ((∃ answer, Web.respond ⟨some "=>", none⟩ (.json .convert (notedBody .null)) =
          .ok (some (Web.jsonResponse 200 answer)) ∧ Json.read answer.compact = .ok answer ∧
        answer.field? "dfa_table" = some twoEntriesTable.toJson) ∧
      (∃ report folder', Command.run ⟨some "=>", none⟩ (notedFolder .null) notedArguments =
          .ok (report, folder') ∧
        ∃ written : String, folder'.read "dfa.json" = .ok (Utf8.encode written.toList) ∧
          Json.read written = .ok twoEntriesTable.toJson) ∧
      ∃ e' e'', (Editor.fresh "=>").run [.loadText (notedText .null), .convert] =
          [(.ok (.config twoEntriesConfig), e'), (.ok (.table twoEntriesTable), e'')]) ∧
    Web.respond ⟨some "q", none⟩ (.json .convert (notedBody .null)) =
        .ok (some (Web.jsonResponse 400
          (.obj [("error", .str "State 'q1' contains the delimiter 'q'")]))) ∧
      Command.run ⟨some "q", none⟩ (notedFolder .null) notedArguments = .ok
        (⟨1, "", some "CommandError: State 'q1' contains the delimiter 'q'\n"⟩,
          notedFolder .null) ∧
      (Editor.fresh "q").step (.loadText (notedText .null)) =
        (.error (.labels (.containsDelimiter "q1" "q")), .fresh "q") := by
  have hfits : Fits 4 (.obj (noted .null)) := fits_noted (.null 3)
  have hfloats := mapFloats_noted (Json.mapFloats_null ·)
  have htext : Json.Denotes (notedText .null) (.obj (noted .null)) :=
    Json.denotes_compact (hfits.reading (by decide)) hfloats
  have hbody : (Body.raw (notedBody .null)).Denotes (.obj [("nfa", .obj (noted .null))]) := by
    have hobject : Fits 5 (.obj [("nfa", .obj (noted .null))]) := by simpa using hfits
    exact Body.denotes_compact (hobject.reading (by decide)) fun g => by simp [hfloats g]
  have hsize : (Body.raw (notedBody .null)).WithinLimit := by
    refine (Encoding.Utf8.length_encode_le _).trans ?_
    rw [Json.compact, String.toList_ofList]
    decide +kernel
  have hlookup : [("nfa", Json.obj (noted .null))].lookup "nfa" = some (.obj (noted .null)) := rfl
  have hsite : ∀ delimiter, Settings.delimiter ⟨some delimiter, none⟩ = some delimiter :=
    fun _ => rfl
  have hpost := Request.posts_json .convert (notedBody .null)
  have hloads : Editor.Step.loadText (notedText .null) ∈ Editor.loads (notedText .null) :=
    List.mem_cons_self
  constructor
  · have hcounts : (Web.Conversion.of twoEntriesConfig "=>").counts = [0, 1, 2, 1, 2, 2, 1] := by
      rw [Web.Conversion.counts, Web.Conversion.of, determinize_twoEntriesConfig]
      rfl
    have hsmall : ∀ n ∈ (Web.Conversion.of twoEntriesConfig "=>").counts, n < 10 ^ maxDigits :=
      Web.Conversion.counts_lt hcounts (by decide)
    have hdevice : Command.isNullDevice "dfa.json" = false :=
      Folder.isNullDevice_of_isPlain (by decide)
    obtain ⟨c, table, hc, htable, hweb, hcommand, heditor⟩ | ⟨o, ho, -⟩ :=
      conversions_agree (e := .fresh "=>") hlookup hsize (hsite "=>") hpost usage_notedArguments
        (ready_noted .null "=>") rfl
    · cases accept_noted.symm.trans hc
      cases determinize_twoEntriesConfig.symm.trans htable
      obtain ⟨answer, hanswer, hfield, hread⟩ := hweb hbody
      obtain ⟨report, folder', hrun, -, -, hfile⟩ := hcommand htext
      obtain ⟨e', e'', hconvert, -⟩ := heditor htext _ hloads
      exact ⟨⟨answer, hanswer, hread hsmall, hfield⟩, ⟨report, folder', hrun, hfile hdevice⟩,
        e', e'', hconvert⟩
    · cases accept_noted.symm.trans ho
  · have hobject : Config.accept "q" (.obj (noted .null)) =
        .error (.labels (.containsDelimiter "q1" "q")) := rfl
    have hmessage : Objection.message (.labels (.containsDelimiter "q1" "q")) =
        "State 'q1' contains the delimiter 'q'" := by decide +kernel
    have hline : Command.lineEnded
        (toString "CommandError: " ++ toString "State 'q1' contains the delimiter 'q'") =
          "CommandError: State 'q1' contains the delimiter 'q'\n" := by decide +kernel
    obtain ⟨c, table, hc, -⟩ | ⟨o, ho, hweb, hcommand, heditor⟩ :=
      conversions_agree (e := .fresh "q") hlookup hsize (hsite "q") hpost usage_notedArguments
        (ready_noted .null "q") rfl
    · cases hobject.symm.trans hc
    · cases hobject.symm.trans ho
      have hanswer := hweb hbody
      have hreport := hcommand htext
      rw [hmessage] at hanswer hreport
      rw [hline] at hreport
      exact ⟨hanswer, hreport, (heditor htext _ hloads).1⟩

section Noted

variable {note : Json}

theorem noted_converted [Host] (hfits : Fits Host.reading (.obj (noted note)))
    (hfloats : ∀ g, note.mapFloats g = note) :
    Json.Denotes (notedText note) (.obj (noted note)) ∧
      (∃ report folder', Command.run ⟨some "=>", none⟩ (notedFolder note) notedArguments =
        .ok (report, folder') ∧ report.exit = 0) ∧
      ∃ e' e'', (Editor.fresh "=>").run [.loadText (notedText note), .convert] =
        [(.ok (.config twoEntriesConfig), e'), (.ok (.table twoEntriesTable), e'')] := by
  have htext : Json.Denotes (notedText note) (.obj (noted note)) :=
    Json.denotes_compact hfits (mapFloats_noted hfloats)
  refine ⟨htext, ?_, ?_⟩
  · obtain ⟨report, folder', hrun, hexit, -⟩ :=
      (ready_noted note "=>").run_accepted htext.read accept_noted
    refine ⟨report, folder', ?_, hexit⟩
    rw [Command.run, usage_notedArguments]
    exact hrun
  · have hconvert := Editor.run_loads_convert (e := .fresh "=>") List.mem_cons_self htext.read
      accept_noted
    have htable : twoEntriesConfig.determinize (Editor.fresh "=>").delimiter = twoEntriesTable :=
      determinize_twoEntriesConfig
    rw [htable] at hconvert
    exact ⟨_, _, hconvert⟩

theorem withinLimit_deepNote : (Body.raw (notedBody (.nested 978))).WithinLimit := by
  refine (Encoding.Utf8.length_encode_le _).trans ?_
  rw [Json.compact, String.toList_ofList, Json.length_chars_obj, noted, Json.length_chars_obj,
    Json.chars_nested, List.length_append, List.length_replicate, List.length_replicate]
  decide +kernel

theorem readChars_deepNote [Host] {n : Nat} (hn : Host.reading = n + 2) :
    Json.readChars (Json.obj [("nfa", .obj (noted (.nested n)))]).compact.toList =
      .error (.limit (.depth .array)) := by
  rw [Json.compact, String.toList_ofList]
  refine Json.readChars_of_stops ?_
  have hnote := (Json.stops_nested n 2).obj Json.Layout.readable_compact "note" (noted .null).tail
  rw [hn]
  exact hnote.obj Json.Layout.readable_compact "nfa" []

theorem lt_length_encode_longNote (n : Nat) :
    n < (notedBody (.str (longText n))).length := by
  rw [notedBody, Json.compact, String.toList_ofList]
  have hnote := Json.chars_infix_chars_obj .compact 1 "note" (.str (longText n)) (noted .null).tail
  exact Web.lt_length_encode_of_infix
    (hnote.trans (Json.chars_infix_chars_obj .compact 0 "nfa" _ []))

/-- Two documents that the command and the editor convert, but not the endpoint: with the brackets
around it the one is nested deeper than can be read, and the other is sent in too large a body. -/
theorem deep_and_long_notes :
    (Json.Denotes (notedText (.nested 978)) (.obj (noted (.nested 978))) ∧
      (∃ report folder', Command.run ⟨some "=>", none⟩ (notedFolder (.nested 978)) notedArguments =
        .ok (report, folder') ∧ report.exit = 0) ∧
      (∃ e' e'', (Editor.fresh "=>").run [.loadText (notedText (.nested 978)), .convert] =
        [(.ok (.config twoEntriesConfig), e'), (.ok (.table twoEntriesTable), e'')]) ∧
      Web.respond ⟨some "=>", none⟩ (.json .convert (notedBody (.nested 978))) =
        .ok (some tooDeeplyNested)) ∧
    Json.Denotes (notedText (.str (longText 2621440))) (.obj (noted (.str (longText 2621440)))) ∧
      (∃ report folder', Command.run ⟨some "=>", none⟩ (notedFolder (.str (longText 2621440)))
        notedArguments = .ok (report, folder') ∧ report.exit = 0) ∧
      (∃ e' e'',
        (Editor.fresh "=>").run [.loadText (notedText (.str (longText 2621440))), .convert] =
          [(.ok (.config twoEntriesConfig), e'), (.ok (.table twoEntriesTable), e'')]) ∧
      Web.respond ⟨some "=>", none⟩ (.json .convert (notedBody (.str (longText 2621440)))) =
        .ok (some tooLarge) := by
  have hdeep : Fits 980 (.obj (noted (.nested 978))) :=
    fits_noted ((Json.fits_nested 978).mono (by decide))
  have hlong : Fits 4 (.obj (noted (.str (longText 2621440)))) := fits_noted (.str 3 _)
  obtain ⟨hdeepText, hdeepRun, hdeepLoad⟩ := noted_converted hdeep (Json.mapFloats_nested 978)
  obtain ⟨hlongText, hlongRun, hlongLoad⟩ :=
    noted_converted (hlong.reading (by decide)) (Json.mapFloats_str · _)
  refine ⟨⟨hdeepText, hdeepRun, hdeepLoad, ?_⟩, hlongText, hlongRun, hlongLoad, ?_⟩
  · exact Web.respond_of_too_deep (Request.posts_json .convert _) (by decide) withinLimit_deepNote
      (Body.characters?_compact _) (readChars_deepNote rfl)
  · refine Web.respond_of_too_large (Request.posts_json .convert _) (by decide) fun hle => ?_
    exact absurd (lt_length_encode_longNote 2621440) (Nat.not_lt.2 hle)

end Noted

end Determinizer
