import Mathlib
import Determinizer.Json.Basic

/-! Shapes of values: of which kind a value is, and which entries it has. Where only the kind of a
missing value matters, it may be taken for null. -/

namespace Determinizer.Json

def IsObject (v : Json) : Prop := ∃ entries, v = .obj entries

def IsArray (v : Json) : Prop := ∃ items, v = .arr items

def IsContainer (v : Json) : Prop := v.IsArray ∨ v.IsObject

def IsText (v : Json) : Prop := ∃ s, v = .str s

def IsTexts (v : Json) : Prop := ∃ items, v = .arr items ∧ ∀ w ∈ items, w.IsText

def Has (v : Json) (name : String) (P : Json → Prop) : Prop := ∃ w, v.field? name = some w ∧ P w

def get (v : Json) (name : String) : Json := (v.field? name).getD .null

def items : Json → List Json
  | arr items => items
  | _ => []

variable {v w : Json} {name : String} {P : Json → Prop}

theorem isTexts_iff : v.IsTexts ↔ ∃ l, v = .strings l := by
  constructor
  · rintro ⟨items, rfl, h⟩
    have hrange : items ∈ Set.range (List.map Json.str) := by
      rw [Set.range_list_map]
      exact fun w hw => (h w hw).imp fun _ => Eq.symm
    obtain ⟨l, rfl⟩ := hrange
    exact ⟨l, rfl⟩
  · rintro ⟨l, rfl⟩
    refine ⟨_, rfl, fun w hw => ?_⟩
    obtain ⟨s, -, rfl⟩ := List.mem_map.1 hw
    exact ⟨s, rfl⟩

theorem not_has_isText_iff : ¬ v.Has name IsText ↔ (v.field? name).bind str? = none := by
  have hhas : v.Has name IsText ↔ ∃ s, (v.field? name).bind str? = some s := by
    simp [Has, IsText, Option.bind_eq_some_iff, and_comm]
  rw [hhas, not_exists, Option.eq_none_iff_forall_ne_some]

theorem not_has_isTexts_iff : ¬ v.Has name IsTexts ↔ (v.field? name).bind strings? = none := by
  have hhas : v.Has name IsTexts ↔ ∃ l, (v.field? name).bind strings? = some l := by
    simp [Has, isTexts_iff, Option.bind_eq_some_iff, strings?_eq_some, and_comm]
  rw [hhas, not_exists, Option.eq_none_iff_forall_ne_some]

theorem str?_getD_null (o : Option Json) : (o.getD .null).str? = o.bind str? := by
  cases o <;> rfl

theorem strings?_getD_null (o : Option Json) : (o.getD .null).strings? = o.bind strings? := by
  cases o <;> rfl

theorem Has.elim (h : v.Has name P) (h' : v.Has name fun w => ¬ P w) : False := by
  obtain ⟨w, hw, hP⟩ := h
  obtain ⟨w', hw', hP'⟩ := h'
  cases hw.symm.trans hw'
  exact hP' hP

theorem has_not_of_not_has (hw : v.field? name = some w) (h : ¬ v.Has name P) :
    v.Has name fun w => ¬ P w :=
  ⟨w, hw, fun hP => h ⟨w, hw, hP⟩⟩

theorem Has.isObject (h : v.Has name P) : v.IsObject := by
  obtain ⟨w, hw, -⟩ := h
  cases v with
  | obj entries => exact ⟨entries, rfl⟩
  | _ => cases hw

end Determinizer.Json
