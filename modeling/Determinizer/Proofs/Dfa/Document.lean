import Determinizer.Dfa.Document
import Determinizer.Proofs.Exploration.Reachable
import Determinizer.Proofs.Json.Fits
import Determinizer.Proofs.Json.RoundTrip

/-! Written tables are read back as the same value. A row of a computed table has each symbol once,
so that its transitions are an object that nothing is lost from. -/

namespace Determinizer

open Json (Fits)

variable {r : Row String} {t : Table}

theorem Row.fits_toJson (depth : Nat) (h : (r.transitions.map Prod.fst).Nodup) :
    Fits (depth + 2) r.toJson := by
  have htransitions : Fits (depth + 1) (.obj (r.transitions.map fun e => (e.1, .str e.2))) := by
    refine .obj (by rwa [List.map_map]) fun e he => ?_
    obtain ⟨a, -, rfl⟩ := List.mem_map.1 he
    exact .str _ _
  refine Json.fits_obj_iff.2 ⟨by simp, ?_⟩
  simp only [List.forall_mem_cons]
  exact ⟨.str _ _, .bool _ _, htransitions, by simp⟩

theorem Row.mapFloats_toJson (g : Float → Float) (r : Row String) :
    r.toJson.mapFloats g = r.toJson := by
  simp [toJson, Function.comp_def]

theorem Row.depth_toJson_le (r : Row String) : r.toJson.depth ≤ 2 := by
  have htransitions : (Json.obj (r.transitions.map fun e => (e.1, .str e.2))).depth ≤ 1 := by
    refine Json.depth_obj_le_iff.2 fun e he => ?_
    obtain ⟨a, -, rfl⟩ := List.mem_map.1 he
    exact (Json.depth_str a.2).le
  refine Json.depth_obj_le_iff.2 ?_
  simp only [List.forall_mem_cons]
  exact ⟨by simp, by simp, htransitions, by simp⟩

theorem Table.depth_toJson_le (t : Table) : (Table.toJson t).depth ≤ 3 := by
  simpa [toJson] using fun r _ => r.depth_toJson_le

theorem Table.fits_toJson (depth : Nat) (h : ∀ r ∈ t, (r.transitions.map Prod.fst).Nodup) :
    Fits (depth + 3) (Table.toJson t) := by
  simpa [toJson] using fun r hr => r.fits_toJson depth (h r hr)

theorem Table.mapFloats_toJson (g : Float → Float) (t : Table) :
    (Table.toJson t).mapFloats g = Table.toJson t := by
  simp [toJson, Function.comp_def, Row.mapFloats_toJson]

theorem Table.read_dump [Host] (h : ∀ r ∈ t, (r.transitions.map Prod.fst).Nodup) :
    Json.read (Table.dump t) = .ok (Table.toJson t) :=
  (Json.read_write_of_mapFloats ((Table.fits_toJson 0 h).reading (by decide)) fun g =>
    Table.mapFloats_toJson g t).1

theorem Nfa.nodup_symbols_of_mem_determinize {N : Nfa} {delimiter : String}
    (hr : r ∈ N.determinize delimiter) : (r.transitions.map Prod.fst).Nodup := by
  obtain ⟨k, -, rfl⟩ := mem_determinize_iff.1 hr
  exact N.nodup_symbols_row delimiter k

theorem Nfa.read_dump_determinize [Host] (N : Nfa) (delimiter : String) :
    Json.read (N.determinize delimiter).dump = .ok (N.determinize delimiter).toJson :=
  Table.read_dump fun _ hr => nodup_symbols_of_mem_determinize hr

end Determinizer
