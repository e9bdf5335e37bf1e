import Determinizer.Proofs.Config.Exchange

/-! Whether a value can be converted with a delimiter, apart from the ways in which it comes in: it
has the shape of a configuration, and the labels in it can be told apart. A text is first read. -/

namespace Determinizer

inductive Objection where
  | rejected (rejection : Rejection)
  | labels (fault : LabelFault)

def Objection.message : Objection → String
  | rejected r => r.message
  | labels fault => fault.message

namespace Config

variable {delimiter text : String} {v : Json} {c : Config} {o : Objection}

def accept (delimiter : String) (v : Json) : Except Objection Config := do
  let c ← (parse v).mapError .rejected
  (c.checkLabels delimiter).mapError .labels
  return c

theorem accept_eq_ok_iff :
    accept delimiter v = .ok c ↔ parse v = .ok c ∧ c.checkLabels delimiter = .ok () := by
  simp only [accept, bind_eq_ok, mapError_eq_ok]
  constructor
  · rintro ⟨c', hparse, u, hlabels, h⟩
    cases h
    exact ⟨hparse, hlabels⟩
  · rintro ⟨hparse, hlabels⟩
    exact ⟨c, hparse, (), hlabels, rfl⟩

theorem accept_eq_error_iff :
    accept delimiter v = .error o ↔ (∃ r, parse v = .error r ∧ o = .rejected r) ∨
      ∃ c fault, parse v = .ok c ∧ c.checkLabels delimiter = .error fault ∧ o = .labels fault := by
  unfold accept
  cases hparse : parse v with
  | error r => simp [Except.mapError, bind, Except.bind, eq_comm]
  | ok c =>
    cases hlabels : c.checkLabels delimiter with
    | error fault => simp [Except.mapError, bind, Except.bind, hlabels, eq_comm]
    | ok _ => simp [Except.mapError, bind, Except.bind, pure, Except.pure, hlabels]

theorem load_of_read [Host] (h : Json.read text = .ok v) :
    load text = (parse v).mapError .rejected := by
  rw [load, h]
  rfl

end Config
end Determinizer
