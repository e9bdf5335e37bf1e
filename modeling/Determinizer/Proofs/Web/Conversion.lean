import Determinizer.Proofs.Config.Acceptance
import Determinizer.Proofs.Dfa.Document
import Determinizer.Proofs.Web.Requests

/-! The answer of the conversion endpoint. It says what there is to say against a value, except that
it takes a value that counts as false for one that is missing. A report is read back from the answer
as long as its counts have no more digits than may be read. -/

namespace Determinizer.Web

open Json (Fits maxDigits)

variable {site : Settings} {r : Request} {b : Body} {delimiter : String} {v : Json} {c : Config}
  {o : Objection}

def Refusal.ofObjection : Objection → Refusal
  | .rejected r => .rejected r
  | .labels fault => .labels fault

theorem Refusal.message_ofObjection (o : Objection) : (ofObjection o).message = o.message := by
  cases o <;> rfl

theorem Conversion.depth_toJson_le (r : Conversion) : r.toJson.depth ≤ 4 := by
  have hlayout : (layoutJson (r.header.map .str) (r.rows.map (·.map .str))).depth ≤ 3 := by
    simp [layoutJson]
  have hextent : r.extent.toJson.depth ≤ 2 := by simp [Extent.toJson]
  have hstatistics : r.statistics.toJson.depth ≤ 2 := by simp [Statistics.toJson]
  simp [toJson, r.table.depth_toJson_le, hlayout, hextent, hstatistics]

theorem answered_conversion [Host] (x : Conversion) :
    answered (.ok x.toJson) = jsonResponse 200 x.toJson :=
  answered_of_depth_le (x.depth_toJson_le.trans (by decide))

theorem convert_eq_bind [Host] (hsite : site.delimiter = some delimiter) (b : Body) :
    convert site b = (do
      let c ← b.readNfa
      (c.checkLabels delimiter).mapError fun fault => .refused (.labels fault)
      return (Conversion.of c delimiter).toJson) := by
  rw [convert, hsite]
  rfl

theorem convert_eq_ok_iff [Host] (hsite : site.delimiter = some delimiter) {answer : Json} :
    convert site b = .ok answer ↔ ∃ c, b.readNfa = .ok c ∧ c.checkLabels delimiter = .ok () ∧
      answer = (Conversion.of c delimiter).toJson := by
  simp only [convert_eq_bind hsite, bind_eq_ok, mapError_eq_ok]
  constructor
  · rintro ⟨c, hc, _, hlabels, hanswer⟩
    cases hanswer
    exact ⟨c, hc, hlabels, rfl⟩
  · rintro ⟨c, hc, hlabels, rfl⟩
    exact ⟨c, hc, (), hlabels, rfl⟩

theorem convert_accepted [Host] (hsite : site.delimiter = some delimiter) (hb : b.Offers v)
    (hc : Config.accept delimiter v = .ok c) :
    convert site b = .ok (Conversion.of c delimiter).toJson := by
  obtain ⟨hparse, hlabels⟩ := Config.accept_eq_ok_iff.1 hc
  exact (convert_eq_ok_iff hsite).2 ⟨c, Body.readNfa_of_parse hb hparse, hlabels, rfl⟩

theorem convert_objected [Host] (hsite : site.delimiter = some delimiter) (hb : b.Offers v)
    (ho : Config.accept delimiter v = .error o) :
    convert site b =
      .error (.refused (if v.truthy then .ofObjection o else .missingNfa)) := by
  rcases Config.accept_eq_error_iff.1 ho with ⟨r, hparse, rfl⟩ | ⟨c, fault, hparse, hlabels, rfl⟩
  · have hnfa := Body.readNfa_of_offers hb
    rw [hparse] at hnfa
    rw [convert, hnfa]
    split <;> rfl
  · -- a value of the right shape has entries, so it is not taken for a missing one
    rw [if_pos (truthy_of_parse hparse)]
    simp only [convert, Body.readNfa_of_parse hb hparse, hsite, Option.getD_some, hlabels, bind,
      Except.bind, Except.mapError]
    rfl

theorem respond_convert_accepted [Host] (hsite : site.delimiter = some delimiter)
    (hr : r.Posts .convert b) (hb : b.Offers v) (hc : Config.accept delimiter v = .ok c) :
    respond site r = .ok (some (jsonResponse 200 (Conversion.of c delimiter).toJson)) := by
  rw [respond_of_posts hr, Endpoint.post, convert_accepted hsite hb hc, answered_conversion]

theorem respond_convert_objected [Host] (hsite : site.delimiter = some delimiter)
    (hr : r.Posts .convert b) (hb : b.Offers v) (ho : Config.accept delimiter v = .error o) :
    respond site r = .ok (some (jsonResponse 400 (.obj [("error",
      .str (if v.truthy then o.message else Refusal.missingNfa.message))]))) := by
  rw [respond_of_posts hr, Endpoint.post, convert_objected hsite hb ho, answered, failed]
  by_cases hv : v.truthy
  · rw [if_pos hv, if_pos hv, Failure.status, Failure.message, Refusal.message_ofObjection]
  · rw [if_neg hv, if_neg hv, Failure.status, Failure.message]

theorem fits_count {n : Nat} (depth : Nat) (h : n < 10 ^ maxDigits) : Fits depth (.int n) :=
  .int depth n (Nat.toDigits_length 10 n maxDigits (by decide) h)

theorem fits_layoutJson (depth : Nat) (header : List String) (rows : List (List String)) :
    Fits (depth + 3) (layoutJson (header.map .str) (rows.map (·.map .str))) := by
  simp [layoutJson]

def Extent.counts (x : Extent) : List Nat := [x.states, x.symbols, x.transitions, x.accepting]

theorem Extent.fits_toJson {x : Extent} (depth : Nat) (h : ∀ n ∈ x.counts, n < 10 ^ maxDigits) :
    Fits (depth + 1) x.toJson := by
  have hcount : ∀ n ∈ x.counts, Fits depth (.int n) := fun n hn => fits_count depth (h n hn)
  simpa [toJson, counts] using hcount

namespace Conversion

def counts (r : Conversion) : List Nat :=
  r.extent.counts ++ [r.statistics.states, r.statistics.transitions, r.statistics.accepting]

theorem counts_lt {r : Conversion} {counts : List Nat} (h : r.counts = counts)
    (hsmall : ∀ n ∈ counts, n < 10) : ∀ n ∈ r.counts, n < 10 ^ maxDigits := by
  rw [h]
  exact fun n hn => (hsmall n hn).trans_le (Nat.le_self_pow (by decide) 10)

theorem fits_statistics {r : Conversion} (depth : Nat) (h : ∀ n ∈ r.counts, n < 10 ^ maxDigits) :
    Fits (depth + 1) r.statistics.toJson := by
  have hcount : ∀ n ∈ [r.statistics.states, r.statistics.transitions, r.statistics.accepting],
      Fits depth (.int n) := fun n hn => fits_count depth (h n (List.mem_append_right _ hn))
  simpa [Statistics.toJson] using hcount

theorem fits_toJson (depth : Nat) (c : Config) (delimiter : String)
    (h : ∀ n ∈ (Conversion.of c delimiter).counts, n < 10 ^ maxDigits) :
    Fits (depth + 4) (Conversion.of c delimiter).toJson := by
  have htable : Fits (depth + 3) (c.determinize delimiter).toJson :=
    Table.fits_toJson depth fun _ hr => Nfa.nodup_symbols_of_mem_determinize hr
  have hextent : Fits (depth + 2) (Conversion.of c delimiter).extent.toJson :=
    Extent.fits_toJson (depth + 1) fun n hn => h n (List.mem_append_left _ hn)
  have hstatistics : Fits (depth + 2) (Conversion.of c delimiter).statistics.toJson :=
    fits_statistics (depth + 1) h
  have hlayout := fits_layoutJson depth (Conversion.of c delimiter).header
    (Conversion.of c delimiter).rows
  refine Json.fits_obj_iff.2 ⟨by simp, ?_⟩
  simp only [List.forall_mem_cons]
  exact ⟨.bool _ _, .str _ _, htable, hlayout, by simp [hextent, hstatistics], .str _ _, by simp⟩

theorem mapFloats_toJson (g : Float → Float) (r : Conversion) :
    r.toJson.mapFloats g = r.toJson := by
  simp [toJson, layoutJson, Extent.toJson, Statistics.toJson, Function.comp_def,
    Table.mapFloats_toJson]

theorem read_compact [Host] (c : Config) (delimiter : String)
    (h : ∀ n ∈ (Conversion.of c delimiter).counts, n < 10 ^ maxDigits) :
    Json.read (Conversion.of c delimiter).toJson.compact =
      .ok (Conversion.of c delimiter).toJson :=
  (Json.read_write_of_mapFloats ((fits_toJson 0 c delimiter h).reading (by decide)) fun g =>
    mapFloats_toJson g _).2

end Conversion
end Determinizer.Web
