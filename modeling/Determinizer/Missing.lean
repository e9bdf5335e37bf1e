import Determinizer.Text.Quoted

/-! Fields that may be missing. A record whose fields are all there is read field by field; the
first one that is needed and not there is the error. -/

namespace Determinizer

structure MissingField where
  name : String
deriving DecidableEq, Repr

def MissingField.message (e : MissingField) : String := Text.quoted e.name

def require {α : Type} (name : String) : Option α → Except MissingField α
  | some a => .ok a
  | none => .error ⟨name⟩

@[simp] theorem require_some {α : Type} (name : String) (a : α) :
    require name (some a) = .ok a := rfl

@[simp] theorem require_none {α : Type} (name : String) :
    require name (none : Option α) = .error ⟨name⟩ := rfl

theorem require_eq_ok_iff {α : Type} {name : String} {o : Option α} {a : α} :
    require name o = .ok a ↔ o = some a := by
  cases o <;> simp

end Determinizer
