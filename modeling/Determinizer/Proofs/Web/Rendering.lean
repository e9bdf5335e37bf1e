import Determinizer.Proofs.Json.Limits
import Determinizer.Proofs.Json.Shape
import Determinizer.Proofs.Web.Requests

/-! Laying out a table that comes from outside, whatever values stand in it. A request is refused
for its shape alone. Then it breaks off if there is a row for which a container would be looked up
as a symbol, or if the layout is nested deeper than can be written, and otherwise every value comes
back as it was sent. -/

namespace Determinizer

namespace Json

variable {v : Json}

theorem container?_eq_none_iff : Web.container? v = none ↔ ¬ v.IsContainer := by
  cases v <;> simp [Web.container?, IsContainer, IsArray, IsObject]

theorem container?_eq_array_iff : Web.container? v = some .array ↔ v.IsArray := by
  cases v <;> simp [Web.container?, IsArray]

theorem container?_eq_object_iff : Web.container? v = some .object ↔ v.IsObject := by
  cases v <;> simp [Web.container?, IsObject]

end Json

namespace Web

open Encoding (Utf8.encode)
open Json (Fits IsArray IsContainer IsObject)

variable {site : Settings} {r : Request} {b : Body} {v w : Json} {row : Row Json}
  {rows : List (Row Json)} {response : Response}

structure IsRow (v : Json) : Prop where
  name : v.Has "name" fun _ => True
  accepting : v.Has "isAccepting" fun _ => True
  transitions : v.Has "transitions" IsObject

def Unusable (v : Json) : Prop :=
  ¬ v.IsObject ∨ ¬ v.Has "alphabet" IsArray ∨ ¬ v.Has "dfa_table" IsArray ∨
    ∃ w ∈ (v.get "dfa_table").items, ¬ IsRow w

def LooksUpContainer (v : Json) : Prop :=
  (v.get "dfa_table").items ≠ [] ∧ ∃ s ∈ (v.get "alphabet").items, s.IsContainer

/-- The cell of a row for a symbol: the value of the entry of that name, if the symbol is a text and
there is such an entry. -/
inductive IsCell (w : Json) : Json → Json → Prop
  | recorded {a : String} {target : Json} :
    (w.get "transitions").field? a = some target → IsCell w (.str a) target
  | missing {symbol : Json} :
    (∀ a, symbol = .str a → (w.get "transitions").field? a = none) → IsCell w symbol (.str "∅")

def HasCells (alphabet : List Json) (w : Json) (cells : List Json) : Prop :=
  ∃ targets, List.Forall₂ (IsCell w) alphabet targets ∧
    cells = w.get "name" :: targets ++
      [if (w.get "isAccepting").truthy then .str "✓" else .str ""]

def LaidOut (v answer : Json) : Prop :=
  ∃ rows, List.Forall₂ (HasCells (v.get "alphabet").items) (v.get "dfa_table").items rows ∧
    answer = .obj
      [ ("header", .arr (.str "State" :: (v.get "alphabet").items ++ [.str "Accepting"])),
        ("rows", .arr (rows.map .arr)) ]

def LaidOutTooDeep [Host] (v : Json) : Prop :=
  ∃ answer, LaidOut v answer ∧ Host.writing < answer.depth

def unhashable (name : String) : Json :=
  .obj [("error", .str s!"Server error: unhashable type: '{name}'")]

def encodingTooDeep : Json :=
  .obj [("error", .str ("Server error: maximum recursion depth exceeded while encoding " ++
    "a JSON object"))]

/-- A response that fits the value in the body of a request to lay out a table. -/
structure Classified [Host] (v : Json) (response : Response) : Prop where
  refused : response.status = 400 ↔ Unusable v
  broken : response.status = 500 ↔ ¬ Unusable v ∧ (LooksUpContainer v ∨ LaidOutTooDeep v)
  answered : response.status = 200 ↔ ¬ Unusable v ∧ ¬ LooksUpContainer v ∧ ¬ LaidOutTooDeep v
  message : ¬ Unusable v → LooksUpContainer v → ∃ before s after,
    (v.get "alphabet").items = before ++ s :: after ∧ (∀ a ∈ before, ¬ a.IsContainer) ∧
      (s.IsArray ∧ response = jsonResponse 500 (unhashable "list") ∨
        s.IsObject ∧ response = jsonResponse 500 (unhashable "dict"))
  tooDeep : ¬ Unusable v → ¬ LooksUpContainer v → LaidOutTooDeep v →
    response = jsonResponse 500 encodingTooDeep
  layout : response.status = 200 → ∃ answer, LaidOut v answer ∧ response = jsonResponse 200 answer

theorem rightUnique_isCell (w : Json) : Relator.RightUnique (IsCell w) := by
  intro symbol target target' h h'
  cases h with
  | recorded htarget =>
    cases h' with
    | recorded htarget' => exact Option.some.inj (htarget.symm.trans htarget')
    | missing hnone => cases htarget.symm.trans (hnone _ rfl)
  | missing hnone =>
    cases h' with
    | recorded htarget' => cases htarget'.symm.trans (hnone _ rfl)
    | missing => rfl

theorem rightUnique_hasCells (alphabet : List Json) : Relator.RightUnique (HasCells alphabet) := by
  rintro w _ _ ⟨targets, htargets, rfl⟩ ⟨targets', htargets', rfl⟩
  rw [(rightUnique_isCell w).forall₂ htargets htargets']

theorem LaidOut.unique {answer answer' : Json} (h : LaidOut v answer) (h' : LaidOut v answer') :
    answer = answer' := by
  obtain ⟨rows, hrows, rfl⟩ := h
  obtain ⟨rows', hrows', rfl⟩ := h'
  rw [(rightUnique_hasCells _).forall₂ hrows hrows']

theorem rowOfJson_eq_ok_iff : rowOfJson w = .ok row ↔
    w.field? "name" = some row.name ∧
      (∃ accepting, w.field? "isAccepting" = some accepting ∧ row.accepting = accepting.truthy) ∧
      w.field? "transitions" = some (.obj row.transitions) := by
  unfold rowOfJson
  constructor
  · intro h
    split at h
    · next name accepting transitions hname haccepting htransitions =>
      cases h
      exact ⟨hname, ⟨accepting, haccepting, rfl⟩, htransitions⟩
    · cases h
  · rintro ⟨hname, ⟨accepting, haccepting, hmark⟩, htransitions⟩
    simp only [hname, haccepting, htransitions, ← hmark]

theorem exists_rowOfJson_iff : (∃ row, rowOfJson w = .ok row) ↔ IsRow w := by
  constructor
  · rintro ⟨row, h⟩
    obtain ⟨hname, ⟨accepting, haccepting, -⟩, htransitions⟩ := rowOfJson_eq_ok_iff.1 h
    exact ⟨⟨_, hname, trivial⟩, ⟨_, haccepting, trivial⟩, ⟨_, htransitions, _, rfl⟩⟩
  · rintro ⟨⟨name, hname, -⟩, ⟨accepting, haccepting, -⟩, ⟨_, htransitions, transitions, rfl⟩⟩
    exact ⟨⟨name, accepting.truthy, transitions⟩,
      rowOfJson_eq_ok_iff.2 ⟨hname, ⟨accepting, haccepting, rfl⟩, htransitions⟩⟩

theorem isCell_targetAt? (h : rowOfJson w = .ok row) (symbol : Json) :
    IsCell w symbol ((targetAt? row symbol).getD (.str "∅")) := by
  obtain ⟨-, -, htransitions⟩ := rowOfJson_eq_ok_iff.1 h
  have hfield : ∀ a, (w.get "transitions").field? a = row.target? a := by
    intro a
    rw [Json.get, htransitions]
    rfl
  cases symbol with
  | str a =>
    rw [targetAt?]
    cases htarget : row.target? a with
    | none =>
      refine .missing fun a' ha' => ?_
      cases ha'
      rw [hfield, htarget]
    | some target => exact .recorded ((hfield a).trans htarget)
  | _ => exact .missing fun _ htext => by cases htext

theorem hasCells_of_rowOfJson (h : rowOfJson w = .ok row) (alphabet : List Json) :
    HasCells alphabet w
      (jsonWording.cells row.name (alphabet.map (targetAt? row)) row.accepting) := by
  obtain ⟨hname, ⟨accepting, haccepting, hmark⟩, -⟩ := rowOfJson_eq_ok_iff.1 h
  refine ⟨(alphabet.map (targetAt? row)).map (·.getD (.str "∅")), ?_, ?_⟩
  · rw [List.map_map, List.forall₂_map_right_iff, List.forall₂_same]
    exact fun symbol _ => isCell_targetAt? h symbol
  · rw [Json.get, Json.get, hname, haccepting, Option.getD_some, Option.getD_some, ← hmark]
    rfl

theorem exists_container_iff {alphabet : List Json} :
    (∃ kind, alphabet.findSome? container? = some kind) ↔ ∃ s ∈ alphabet, s.IsContainer := by
  rw [← Option.isSome_iff_exists, List.findSome?_isSome_iff]
  refine exists_congr fun s => and_congr_right fun _ => ?_
  rw [Option.isSome_iff_ne_none, ne_eq, Json.container?_eq_none_iff, not_not]

theorem not_unusable_of_isRow {alphabet table : List Json}
    (halphabet : v.field? "alphabet" = some (.arr alphabet))
    (htable : v.field? "dfa_table" = some (.arr table)) (hrows : ∀ w ∈ table, IsRow w) :
    ¬ Unusable v := by
  have hhas : v.Has "alphabet" IsArray := ⟨_, halphabet, alphabet, rfl⟩
  rintro (hnot | hnot | hnot | ⟨w, hw, hnot⟩)
  · exact hnot hhas.isObject
  · exact hnot hhas
  · exact hnot ⟨_, htable, table, rfl⟩
  · rw [Json.get, htable] at hw
    exact hnot (hrows w hw)

structure Usable (v : Json) (alphabet table : List Json) (rows : List (Row Json)) : Prop where
  alphabetField : v.field? "alphabet" = some (.arr alphabet)
  tableField : v.field? "dfa_table" = some (.arr table)
  rows : List.Forall₂ (fun w row => rowOfJson w = .ok row) table rows

theorem exists_usable (h : ¬ Unusable v) : ∃ alphabet table rows, Usable v alphabet table rows := by
  simp only [Unusable, not_or, not_not, not_exists, not_and] at h
  obtain ⟨-, ⟨_, halphabet, alphabet, rfl⟩, ⟨_, htable, table, rfl⟩, hall⟩ := h
  rw [Json.get, htable] at hall
  obtain ⟨rows, hrows⟩ := exists_mapM_eq_ok_iff.2 fun w hw => exists_rowOfJson_iff.2 (hall w hw)
  exact ⟨alphabet, table, rows, halphabet, htable, mapM_eq_ok.1 hrows⟩

namespace Usable

variable {alphabet table : List Json}

theorem items_alphabet (h : Usable v alphabet table rows) :
    (v.get "alphabet").items = alphabet := by
  rw [Json.get, h.alphabetField]
  rfl

theorem items_table (h : Usable v alphabet table rows) : (v.get "dfa_table").items = table := by
  rw [Json.get, h.tableField]
  rfl

theorem not_unusable (h : Usable v alphabet table rows) : ¬ Unusable v :=
  not_unusable_of_isRow h.alphabetField h.tableField fun w hw =>
    exists_rowOfJson_iff.1 (exists_mapM_eq_ok_iff.1 ⟨rows, mapM_eq_ok.2 h.rows⟩ w hw)

theorem render_nil (h : Usable v alphabet table []) : render v = .ok (layout alphabet []) := by
  simp only [render, h.alphabetField, h.tableField, mapM_eq_ok.2 h.rows]
  rfl

theorem render_cons (h : Usable v alphabet table (row :: rows)) :
    render v = match alphabet.findSome? container? with
      | some kind => .error (.broken (.containerSymbol kind))
      | none => .ok (layout alphabet (row :: rows)) := by
  simp only [render, h.alphabetField, h.tableField, mapM_eq_ok.2 h.rows, Except.mapError, bind,
    Except.bind]
  cases alphabet.findSome? container? <;> rfl

theorem render_of_looksUpContainer (h : Usable v alphabet table rows) (hl : LooksUpContainer v) :
    ∃ kind, alphabet.findSome? container? = some kind ∧
      render v = .error (.broken (.containerSymbol kind)) := by
  rw [LooksUpContainer, h.items_table, h.items_alphabet, ← exists_container_iff] at hl
  obtain ⟨hne, kind, hkind⟩ := hl
  cases rows with
  | nil => exact absurd (List.forall₂_nil_right_iff.1 h.rows) hne
  | cons row rows =>
    refine ⟨kind, hkind, ?_⟩
    rw [h.render_cons, hkind]

theorem render_of_not_looksUpContainer (h : Usable v alphabet table rows)
    (hl : ¬ LooksUpContainer v) : render v = .ok (layout alphabet rows) := by
  rw [LooksUpContainer, h.items_table, h.items_alphabet, ← exists_container_iff] at hl
  cases rows with
  | nil => exact h.render_nil
  | cons row rows =>
    have hne : table ≠ [] := by
      rintro rfl
      cases h.rows
    rw [h.render_cons, Option.eq_none_iff_forall_ne_some.2 fun kind hkind => hl ⟨hne, kind, hkind⟩]

end Usable

theorem render_of_unusable (h : Unusable v) : ∃ refusal, render v = .error (.refused refusal) := by
  unfold render
  split
  · next alphabet table halphabet htable =>
    cases hmap : table.mapM rowOfJson with
    | error refusal => exact ⟨refusal, rfl⟩
    | ok rows =>
      have husable : Usable v alphabet table rows := ⟨halphabet, htable, mapM_eq_ok.1 hmap⟩
      exact absurd h husable.not_unusable
  · exact ⟨.notLists, rfl⟩

theorem Body.readObject_of_read [Host] (hread : b.read = .ok v) :
    b.readObject = .ok v ∧ v.IsObject ∨
      b.readObject = .error (.refused .bodyNotObject) ∧ ¬ v.IsObject := by
  rw [readObject, hread]
  cases v with
  | obj entries => exact .inl ⟨rfl, entries, rfl⟩
  | _ =>
    refine .inr ⟨rfl, ?_⟩
    rintro ⟨_, h⟩
    cases h

theorem classified_refused [Host] (refusal : Refusal) (h : Unusable v) :
    Classified v (failed (.refused refusal)) where
  refused := iff_of_true rfl h
  broken := iff_of_false (fun hstatus => by cases hstatus) fun hnot => hnot.1 h
  answered := iff_of_false (fun hstatus => by cases hstatus) fun hnot => hnot.1 h
  message hnot := absurd h hnot
  tooDeep hnot := absurd h hnot
  layout hstatus := by cases hstatus

namespace Usable

variable [Host] {alphabet table : List Json} {kind : Json.Container}

theorem classified_broken (h : Usable v alphabet table rows) (hl : LooksUpContainer v)
    (hkind : alphabet.findSome? container? = some kind) :
    Classified v (failed (.broken (.containerSymbol kind))) where
  refused := iff_of_false (fun hstatus => by cases hstatus) h.not_unusable
  broken := iff_of_true rfl ⟨h.not_unusable, .inl hl⟩
  answered := iff_of_false (fun hstatus => by cases hstatus) fun hnot => hnot.2.1 hl
  message _ _ := by
    obtain ⟨before, s, after, rfl, hs, hbefore⟩ := List.findSome?_eq_some_iff.1 hkind
    refine ⟨before, s, after, h.items_alphabet, ?_, ?_⟩
    · exact fun a ha => Json.container?_eq_none_iff.1 (hbefore a ha)
    · cases kind with
      | array => exact .inl ⟨Json.container?_eq_array_iff.1 hs, rfl⟩
      | object => exact .inr ⟨Json.container?_eq_object_iff.1 hs, rfl⟩
  tooDeep _ hnot := absurd hl hnot
  layout hstatus := by cases hstatus

omit [Host] in
theorem laidOut (h : Usable v alphabet table rows) : LaidOut v (Web.layout alphabet rows) := by
  refine ⟨rows.map fun row =>
    jsonWording.cells row.name (alphabet.map (targetAt? row)) row.accepting, ?_, ?_⟩
  · rw [h.items_alphabet, h.items_table, List.forall₂_map_right_iff]
    exact h.rows.imp fun _ _ hrow => hasCells_of_rowOfJson hrow alphabet
  · rw [h.items_alphabet, Web.layout, layoutJson, List.map_map]
    rfl

theorem laidOutTooDeep_iff (h : Usable v alphabet table rows) :
    LaidOutTooDeep v ↔ Host.writing < (Web.layout alphabet rows).depth := by
  refine ⟨?_, fun hdepth => ⟨_, h.laidOut, hdepth⟩⟩
  rintro ⟨answer, hanswer, hdepth⟩
  rwa [hanswer.unique h.laidOut] at hdepth

theorem classified_answered (h : Usable v alphabet table rows) (hl : ¬ LooksUpContainer v) :
    Classified v (Web.answered (.ok (Web.layout alphabet rows))) := by
  by_cases hdepth : (Web.layout alphabet rows).depth ≤ Host.writing
  · have hdeep : ¬ LaidOutTooDeep v := fun hdeep => absurd (h.laidOutTooDeep_iff.1 hdeep)
      (Nat.not_lt.2 hdepth)
    rw [Web.answered, if_pos hdepth]
    exact {
      refused := iff_of_false (fun hstatus => by cases hstatus) h.not_unusable
      broken := iff_of_false (fun hstatus => by cases hstatus) fun hbroken =>
        hbroken.2.elim hl hdeep
      answered := iff_of_true rfl ⟨h.not_unusable, hl, hdeep⟩
      message := fun _ hl' => absurd hl' hl
      tooDeep := fun _ _ hdeep' => absurd hdeep' hdeep
      layout := fun _ => ⟨_, h.laidOut, rfl⟩ }
  · have hdeep : LaidOutTooDeep v := h.laidOutTooDeep_iff.2 (Nat.not_le.1 hdepth)
    rw [Web.answered, if_neg hdepth]
    exact {
      refused := iff_of_false (fun hstatus => by cases hstatus) h.not_unusable
      broken := iff_of_true rfl ⟨h.not_unusable, .inr hdeep⟩
      answered := iff_of_false (fun hstatus => by cases hstatus) fun hnot => hnot.2.2 hdeep
      message := fun _ hl' => absurd hl' hl
      tooDeep := fun _ _ _ => rfl
      layout := fun hstatus => by cases hstatus }

end Usable

theorem classified_of_read [Host] (hr : r.Posts .renderTable b) (hread : b.read = .ok v) :
    ∃ response, respond site r = .ok (some response) ∧ Classified v response := by
  refine ⟨_, respond_of_posts hr, ?_⟩
  rw [Endpoint.post]
  obtain ⟨hobject, hv⟩ | ⟨hobject, hv⟩ := Body.readObject_of_read hread
  · rw [hobject]
    change Classified v (answered (render v))
    by_cases hunusable : Unusable v
    · obtain ⟨refusal, hrender⟩ := render_of_unusable hunusable
      rw [hrender]
      exact classified_refused refusal hunusable
    obtain ⟨alphabet, table, rows, husable⟩ := exists_usable hunusable
    by_cases hl : LooksUpContainer v
    · obtain ⟨kind, hkind, hrender⟩ := husable.render_of_looksUpContainer hl
      rw [hrender]
      exact husable.classified_broken hl hkind
    · rw [husable.render_of_not_looksUpContainer hl]
      exact husable.classified_answered hl
  · rw [hobject]
    exact classified_refused .bodyNotObject (.inl hv)

/-- The response to a request to lay out a table, whatever value its body is, unless the body is too
large. -/
theorem rendering_classified [Host] (hr : r.Posts .renderTable b) (hb : b.Denotes v) :
    ∃ response, respond site r = .ok (some response) ∧
      (b.WithinLimit → Classified v response) ∧ (¬ b.WithinLimit → response = tooLarge) := by
  by_cases hsize : b.WithinLimit
  · obtain ⟨response, hresponse, hclass⟩ := classified_of_read hr (hb.read hsize)
    exact ⟨response, hresponse, fun _ => hclass, fun hlarge => absurd hsize hlarge⟩
  · exact ⟨tooLarge, respond_of_too_large hr (by decide) hsize, fun hle => absurd hle hsize,
      fun _ => rfl⟩

def sentTable (alphabet table : List Json) : Json :=
  .obj [("alphabet", .arr alphabet), ("dfa_table", .arr table)]

def Request.table (alphabet table : List Json) : Request :=
  .json .renderTable (Utf8.encode (sentTable alphabet table).compact.toList)

def namelessRow : Json :=
  .obj [("name", .null), ("isAccepting", .str "no"), ("transitions", .obj [("a", .arr [.null])])]

def mixedLayout : Json :=
  .obj
    [ ("header", .arr [.str "State", .str "a", .null, .str "Accepting"]),
      ("rows", .arr [.arr [.null, .arr [.null], .str "∅", .str "✓"]]) ]

def emptyLayout : Json :=
  .obj [("header", .arr [.str "State", .arr [], .obj [], .str "Accepting"]), ("rows", .arr [])]

theorem denotes_sentTable [Host] {alphabet table : List Json}
    (halphabet : alphabet = [.str "a", .null] ∨ alphabet = [.arr [], .obj []])
    (htable : table = [] ∨ table = [namelessRow]) :
    (Body.raw (Utf8.encode (sentTable alphabet table).compact.toList)).Denotes
      (sentTable alphabet table) := by
  have hfits : Fits 5 (sentTable alphabet table) := by
    rcases halphabet with rfl | rfl <;> rcases htable with rfl | rfl <;>
      simp [sentTable, namelessRow]
  refine Body.denotes_compact (hfits.reading (by decide)) fun g => ?_
  rcases halphabet with rfl | rfl <;> rcases htable with rfl | rfl <;> simp [namelessRow]

theorem isRow_namelessRow : IsRow namelessRow where
  name := ⟨_, rfl, trivial⟩
  accepting := ⟨_, rfl, trivial⟩
  transitions := ⟨_, rfl, _, rfl⟩

theorem hasCells_namelessRow {cells : List Json}
    (h : HasCells [.str "a", .null] namelessRow cells) :
    cells = [.null, .arr [.null], .str "∅", .str "✓"] := by
  obtain ⟨targets, htargets, rfl⟩ := h
  obtain ⟨_, _, hfirst, hrest, rfl⟩ := List.forall₂_cons_left_iff.1 htargets
  obtain ⟨_, _, hsecond, hnil, rfl⟩ := List.forall₂_cons_left_iff.1 hrest
  cases List.forall₂_nil_left_iff.1 hnil
  cases hfirst with
  | recorded h =>
    cases h
    cases hsecond
    rfl
  | missing h => cases h "a" rfl

theorem LaidOut.eq_mixedLayout {answer : Json}
    (h : LaidOut (sentTable [.str "a", .null] [namelessRow]) answer) : answer = mixedLayout := by
  obtain ⟨rows, hrows, rfl⟩ := h
  obtain ⟨cells, _, hcells, hnil, rfl⟩ := List.forall₂_cons_left_iff.1 hrows
  cases List.forall₂_nil_left_iff.1 hnil
  cases hasCells_namelessRow hcells
  rfl

theorem LaidOut.eq_emptyLayout {answer : Json}
    (h : LaidOut (sentTable [.arr [], .obj []] []) answer) : answer = emptyLayout := by
  obtain ⟨rows, hrows, rfl⟩ := h
  cases List.forall₂_nil_left_iff.1 hrows
  rfl

theorem length_compact_sentTable_le :
    4 * (sentTable [.str "a", .null] [namelessRow]).compact.toList.length ≤ maxBodyBytes ∧
      4 * (sentTable [.arr [], .obj []] [namelessRow]).compact.toList.length ≤ maxBodyBytes ∧
      4 * (sentTable [.arr [], .obj []] []).compact.toList.length ≤ maxBodyBytes := by
  simp only [Json.compact, String.toList_ofList]
  decide +kernel

theorem eq_of_first_container {before after : List Json} {s : Json}
    (h : [.arr [], .obj []] = before ++ s :: after) (hbefore : ∀ a ∈ before, ¬ a.IsContainer) :
    s = .arr [] := by
  cases before with
  | nil =>
    cases h
    rfl
  | cons x before =>
    obtain ⟨rfl, -⟩ := List.cons.inj h
    exact absurd (.inl ⟨_, rfl⟩) (hbefore _ List.mem_cons_self)

theorem mixed_tables_laid_out :
    respond .default (.table [.arr [], .obj []] [namelessRow]) =
      .ok (some (jsonResponse 500 (unhashable "list"))) ∧
    respond .default (.table [.arr [], .obj []] []) =
      .ok (some (jsonResponse 200 (.obj
        [ ("header", .arr [.str "State", .arr [], .obj [], .str "Accepting"]),
          ("rows", .arr []) ]))) ∧
    respond .default (.table [.str "a", .null] [namelessRow]) =
      .ok (some (jsonResponse 200 (.obj
        [ ("header", .arr [.str "State", .str "a", .null, .str "Accepting"]),
          ("rows", .arr [.arr [.null, .arr [.null], .str "∅", .str "✓"]]) ]))) := by
  obtain ⟨htexts, hmixed, hempty⟩ := length_compact_sentTable_le
  have husable : ∀ alphabet, ¬ Unusable (sentTable alphabet [namelessRow]) := fun alphabet =>
    not_unusable_of_isRow rfl rfl (by simp [isRow_namelessRow])
  refine ⟨?_, ?_, ?_⟩
  · obtain ⟨response, hresponse, hclass, -⟩ := rendering_classified
      (Request.posts_json .renderTable _) (denotes_sentTable (.inr rfl) (.inr rfl))
    have hl : LooksUpContainer (sentTable [.arr [], .obj []] [namelessRow]) :=
      ⟨List.cons_ne_nil namelessRow [], .arr [], List.mem_cons_self, .inl ⟨_, rfl⟩⟩
    obtain ⟨before, s, after, hsymbols, hbefore, hkind⟩ :=
      (hclass ((Encoding.Utf8.length_encode_le _).trans hmixed)).message (husable _) hl
    have hs : s = .arr [] := eq_of_first_container hsymbols hbefore
    rcases hkind with ⟨-, rfl⟩ | ⟨⟨_, hobject⟩, -⟩
    · exact hresponse
    · cases hs.symm.trans hobject
  · obtain ⟨response, hresponse, hclass, -⟩ := rendering_classified
      (Request.posts_json .renderTable _) (denotes_sentTable (.inr rfl) (.inl rfl))
    have hclass := hclass ((Encoding.Utf8.length_encode_le _).trans hempty)
    have hl : ¬ LooksUpContainer (sentTable [.arr [], .obj []] []) := fun h => h.1 rfl
    have hdeep : ¬ LaidOutTooDeep (sentTable [.arr [], .obj []] []) := by
      rintro ⟨answer, hanswer, hdepth⟩
      rw [hanswer.eq_emptyLayout] at hdepth
      exact absurd hdepth (by decide)
    obtain ⟨answer, hanswer, rfl⟩ := hclass.layout
      (hclass.answered.2 ⟨not_unusable_of_isRow rfl rfl (by simp), hl, hdeep⟩)
    cases hanswer.eq_emptyLayout
    exact hresponse
  · obtain ⟨response, hresponse, hclass, -⟩ := rendering_classified
      (Request.posts_json .renderTable _) (denotes_sentTable (.inl rfl) (.inr rfl))
    have hclass := hclass ((Encoding.Utf8.length_encode_le _).trans htexts)
    have hl : ¬ LooksUpContainer (sentTable [.str "a", .null] [namelessRow]) := by
      simp [LooksUpContainer, sentTable, Json.get, Json.field?, Json.items, IsContainer, IsArray,
        IsObject]
    have hdeep : ¬ LaidOutTooDeep (sentTable [.str "a", .null] [namelessRow]) := by
      rintro ⟨answer, hanswer, hdepth⟩
      rw [hanswer.eq_mixedLayout] at hdepth
      exact absurd hdepth (by decide)
    obtain ⟨answer, hanswer, rfl⟩ := hclass.layout (hclass.answered.2 ⟨husable _, hl, hdeep⟩)
    cases hanswer.eq_mixedLayout
    exact hresponse

section CutShort

abbrev roomy : Host := { Host.default with reading := 990, le_reading := by decide }

def nestedRow (n : Nat) : Json :=
  .obj [("name", .nested n), ("isAccepting", .null), ("transitions", .obj [])]

variable (n : Nat)

theorem characters?_nested [Host] :
    (Body.raw (Utf8.encode (Json.nested (n + 1)).compact.toList)).characters? =
      some (Json.nested (n + 1)).compact.toList := by
  have hchars : (Json.nested (n + 1)).compact.toList =
      '[' :: '[' :: (List.replicate n '[' ++ List.replicate (n + 2) ']') := by
    rw [Json.compact, String.toList_ofList, Json.chars_nested]
    rfl
  rw [hchars]
  exact Body.characters?_encode_ascii (by decide) (by decide)

theorem denotes_nested [Host] (h : n + 2 ≤ Host.reading) :
    (Body.raw (Utf8.encode (Json.nested (n + 1)).compact.toList)).Denotes (.nested (n + 1)) := by
  intro lone
  have hread := @Json.read_write_of_mapFloats (Host.withLone lone) _
    ((Json.fits_nested (n + 1)).mono h) (Json.mapFloats_nested (n + 1))
  exact ⟨_, @characters?_nested n (Host.withLone lone),
    @Json.readChars_of_read (Host.withLone lone) _ _ hread.2⟩

theorem length_encode_chars_nested_le (k : Nat) :
    (Utf8.encode (Json.Layout.compact.chars k (.nested n))).length ≤ 8 * (n + 1) := by
  refine (Encoding.Utf8.length_encode_le _).trans ?_
  rw [Json.chars_nested, List.length_append, List.length_replicate, List.length_replicate]
  omega

theorem respond_nested [Host] (h : Host.reading < n + 2) (hsize : 8 * (n + 2) ≤ maxBodyBytes) :
    respond site (.json .renderTable (Utf8.encode (Json.nested (n + 1)).compact.toList)) =
      .ok (some tooDeeplyNested) := by
  have hlimit : Json.readChars (Json.nested (n + 1)).compact.toList =
      .error (.limit (.depth .array)) := by
    rw [Json.compact, Json.chars_nested]
    exact Json.readChars_of_read_limit (Json.read_of_deep h _)
  have hle : (Body.raw (Utf8.encode (Json.nested (n + 1)).compact.toList)).WithinLimit := by
    rw [Body.WithinLimit, Json.compact, String.toList_ofList]
    exact (length_encode_chars_nested_le (n + 1) 0).trans hsize
  exact respond_of_too_deep (Request.posts_json .renderTable _) (by decide) hle
    (characters?_nested n) hlimit

theorem compact_sentTable_nestedRow : (sentTable [] [nestedRow n]).compact.toList =
    "\x7b\"alphabet\": [], \"dfa_table\": [\x7b\"name\": ".toList ++
      (Json.Layout.compact.chars 3 (.nested n) ++
        ", \"isAccepting\": null, \"transitions\": \x7b\x7d\x7d]\x7d".toList) := by
  rw [Json.compact, String.toList_ofList]
  simp only [sentTable, nestedRow, Json.Layout.chars, Json.Layout.itemChars,
    Json.Layout.entryChars, List.append_assoc, List.cons_append]
  generalize Json.Layout.compact.chars _ (Json.nested n) = name
  rfl

theorem denotes_nestedRow [Host] (h : n + 4 ≤ Host.reading) :
    (Body.raw (Utf8.encode (sentTable [] [nestedRow n]).compact.toList)).Denotes
      (sentTable [] [nestedRow n]) := by
  have hfits : Fits (n + 4) (sentTable [] [nestedRow n]) := by
    simp [sentTable, nestedRow, Json.fits_nested n]
  refine Body.denotes_compact (hfits.mono h) fun g => ?_
  simp [nestedRow, Json.mapFloats_nested]

theorem denotes_longText [Host] :
    (Body.raw (Utf8.encode (sentTable [.str (longText n)] []).compact.toList)).Denotes
      (sentTable [.str (longText n)] []) := by
  have hfits : Fits 2 (sentTable [.str (longText n)] []) := by simp [sentTable]
  exact Body.denotes_compact (hfits.reading (by decide)) fun g => by simp

theorem respond_nestedRow [Host] (hdepth : n + 4 ≤ Host.reading) (hdeep : Host.writing < n + 4)
    (hsize : 8 * (n + 1) + 100 ≤ maxBodyBytes) :
    respond site (.table [] [nestedRow n]) = .ok (some (jsonResponse 500 encodingTooDeep)) := by
  have hle : (Body.raw (Utf8.encode (sentTable [] [nestedRow n]).compact.toList)).WithinLimit := by
    have hbefore : (Utf8.encode
        "\x7b\"alphabet\": [], \"dfa_table\": [\x7b\"name\": ".toList).length = 40 := by
      decide +kernel
    have hafter : (Utf8.encode
        ", \"isAccepting\": null, \"transitions\": \x7b\x7d\x7d]\x7d".toList).length = 43 := by
      decide +kernel
    have hname := length_encode_chars_nested_le n 3
    rw [Body.WithinLimit, compact_sentTable_nestedRow, Encoding.Utf8.encode_append,
      Encoding.Utf8.encode_append, List.length_append, List.length_append]
    omega
  have hrender : render (sentTable [] [nestedRow n]) = .ok (.obj
      [ ("header", .arr [.str "State", .str "Accepting"]),
        ("rows", .arr [.arr [.nested n, .str ""]]) ]) := rfl
  have hanswer : (Json.obj [("header", .arr [.str "State", .str "Accepting"]),
      ("rows", .arr [.arr [.nested n, .str ""]])]).depth = n + 4 := by
    simp [Json.depth, Json.itemsDepth, Json.entriesDepth, Json.depth_nested]
  rw [Request.table, respond_of_posts (Request.posts_json .renderTable _), Endpoint.post,
    (denotes_nestedRow n hdepth).readObject hle]
  change Except.ok (some (answered (render (sentTable [] [nestedRow n])))) = _
  rw [hrender, answered, if_neg (hanswer ▸ Nat.not_le.2 hdeep)]
  rfl

theorem lt_length_encode_sentTable_longText :
    n < (Utf8.encode (sentTable [.str (longText n)] []).compact.toList).length := by
  rw [Json.compact, String.toList_ofList]
  have hsymbol := Json.chars_infix_chars_arr .compact 1 (.str (longText n)) []
  exact lt_length_encode_of_infix (hsymbol.trans (Json.chars_infix_chars_obj .compact 0 _ _ _))

/-- Two usable tables that are not laid out: the one is sent in too large a body, and the layout of
the other is nested too deep. And a body that is no object but is not refused, since only another
call could read it. -/
theorem renderings_cut_short :
    ((Body.raw (Utf8.encode (sentTable [.str (longText 2621440)] []).compact.toList)).Denotes
        (sentTable [.str (longText 2621440)] []) ∧
      ¬ Unusable (sentTable [.str (longText 2621440)] []) ∧
      ¬ LooksUpContainer (sentTable [.str (longText 2621440)] []) ∧
      respond .default (.table [.str (longText 2621440)] []) = .ok (some tooLarge)) ∧
    ((Body.raw (Utf8.encode (sentTable [] [nestedRow 976]).compact.toList)).Denotes
        (sentTable [] [nestedRow 976]) ∧
      ¬ Unusable (sentTable [] [nestedRow 976]) ∧
      ¬ LooksUpContainer (sentTable [] [nestedRow 976]) ∧
      respond .default (.table [] [nestedRow 976]) =
        .ok (some (jsonResponse 500 encodingTooDeep))) ∧
    @Body.Denotes roomy (.raw (Utf8.encode (Json.nested 989).compact.toList)) (.nested 989) ∧
      ¬ (Json.nested 989).IsObject ∧
      respond .default (.json .renderTable (Utf8.encode (Json.nested 989).compact.toList)) =
        .ok (some tooDeeplyNested) := by
  refine ⟨⟨denotes_longText _, ?_, ?_, ?_⟩, ⟨denotes_nestedRow 976 (by decide), ?_, ?_, ?_⟩,
    ?_, ?_, ?_⟩
  · exact not_unusable_of_isRow rfl rfl (by simp)
  · exact fun h => h.1 rfl
  · refine respond_of_too_large (Request.posts_json .renderTable _) (by decide) fun hle => ?_
    exact absurd (lt_length_encode_sentTable_longText 2621440) (Nat.not_lt.2 hle)
  · refine not_unusable_of_isRow rfl rfl fun w hw => ?_
    obtain rfl := List.mem_singleton.1 hw
    exact ⟨⟨_, rfl, trivial⟩, ⟨_, rfl, trivial⟩, ⟨_, rfl, _, rfl⟩⟩
  · rintro ⟨-, s, hs, -⟩
    cases hs
  · exact respond_nestedRow 976 (by decide) (by decide) (by decide)
  · exact @denotes_nested 988 roomy (by decide)
  · rintro ⟨entries, h⟩
    cases h
  · exact respond_nested 988 (by decide) (by decide)

end CutShort

end Web
end Determinizer
