import Determinizer.Proofs.Config.Document

/-! Saved configurations are loaded back, from their text and from its bytes. What is saved may also
be the object that a configuration was taken from: just the fields of the format are written, and
they have their values again. -/

namespace Determinizer

open Encoding (Utf8.encode)
open Json (Fits)

namespace Config

variable {entries : List (String × Json)} {v : Json} {c : Config}

theorem load_eq_ok_iff [Host] {text : String} :
    load text = .ok c ↔ ∃ v, Json.read text = .ok v ∧ ofJson v = .ok c := by
  unfold load
  cases hread : Json.read text with
  | error e => simp [ofRead]
  | ok v =>
    simp only [ofRead, parse, mapError_eq_ok, Except.ok.injEq, exists_eq_left']

theorem loadBytes_encode [Host] (text : String) :
    loadBytes (Utf8.encode text.toList) = load text := by
  rw [loadBytes, Encoding.Utf8.decode_encode]
  exact congrArg load String.ofList_toList

theorem load_indented [Host] (hv : Fits Host.reading v) (hc : ofJson v = .ok c) :
    load v.indented = .ok c := by
  obtain ⟨g, hg⟩ := Json.exists_read_write
  exact load_eq_ok_iff.2 ⟨_, (hg v hv).1, ofJson_mapFloats hc⟩

theorem read_dump [Host] (c : Config) : Json.read c.dump = .ok c.toJson :=
  (Json.read_write_of_mapFloats ((c.fits_toJson 0).reading (by decide)) fun _ =>
    c.mapFloats_toJson).1

theorem load_dump [Host] (c : Config) : load c.dump = .ok c :=
  load_eq_ok_iff.2 ⟨_, c.read_dump, c.ofJson_toJson⟩

def project (entries : List (String × Json)) : List (String × Json) :=
  fieldNames.map fun name => (name, (entries.lookup name).getD .null)

theorem lookup_project (h : c.StandsIn entries) {name : String} (hname : name ∈ fieldNames) :
    (project entries).lookup name = entries.lookup name := by
  obtain ⟨v, hv⟩ := Option.isSome_iff_exists.1 (h.lookup_isSome hname)
  rw [project, List.lookup_graph _ hname, hv, Option.getD_some]

theorem standsIn_project (h : c.StandsIn entries) : c.StandsIn (project entries) :=
  h.congr fun _ hname => lookup_project h hname

theorem fits_project {depth : Nat} (h : c.StandsIn entries) (hfits : Fits depth (.obj entries)) :
    Fits depth (.obj (project entries)) := by
  cases hfits with
  | obj hnodup hentries =>
    refine .obj ?_ fun e he => ?_
    · have hnames : (project entries).map Prod.fst = fieldNames := by
        rw [project, List.map_map]
        rfl
      rw [hnames]
      decide
    · obtain ⟨name, hname, rfl⟩ := List.mem_map.1 he
      obtain ⟨v, hv⟩ := Option.isSome_iff_exists.1 (h.lookup_isSome hname)
      obtain ⟨l₁, l₂, hmem, -⟩ := List.lookup_eq_some_iff.1 hv
      have hfield := hentries (name, v) (by simp [hmem])
      simpa only [hv, Option.getD_some] using hfield

theorem dumpFields_eq (h : c.StandsIn entries) :
    dumpFields entries = .ok (Json.obj (project entries)).indented := by
  have hfields : fieldNames.mapM (fun name => do
      return (name, ← require name (entries.lookup name))) = .ok (project entries) := by
    refine mapM_eq_ok.2 ?_
    rw [project, List.forall₂_map_right_iff]
    refine List.forall₂_same.2 fun name hname => ?_
    obtain ⟨v, hv⟩ := Option.isSome_iff_exists.1 (h.lookup_isSome hname)
    rw [hv]
    rfl
  rw [dumpFields, hfields]
  rfl

theorem load_dumpFields [Host] (h : ofJson (.obj entries) = .ok c)
    (hfits : Fits Host.reading (.obj entries)) :
    ∃ text, dumpFields entries = .ok text ∧ load text = .ok c := by
  have hfields := ofJson_obj_eq_ok_iff.1 h
  have hproject := ofJson_obj_eq_ok_iff.2 (standsIn_project hfields)
  exact ⟨_, dumpFields_eq hfields, load_indented (fits_project hfields hfits) hproject⟩

end Config
end Determinizer
