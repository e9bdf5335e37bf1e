import Determinizer.Proofs.Config.Exchange
import Determinizer.Proofs.Json.Limits

/-! Documents that are no configurations. Loading one is to say so: the document is rejected with a
message of a fixed beginning. This holds of all documents but those that meet a limit of the reader,
whose error is no rejection and has the message of the reader alone. -/

namespace Determinizer.Config

open Encoding (Utf8.decode)
open Json (Exceeds Limit)

inductive Source where
  | text (s : String)
  | bytes (b : List UInt8)

namespace Source

def load [Host] : Source → Except LoadError Config
  | text s => Config.load s
  | bytes b => Config.loadBytes b

def characters? : Source → Option (List Char)
  | text s => some s.toList
  | bytes b => (Utf8.decode b).toOption

def Meets [Host] (source : Source) (l : Limit) : Prop :=
  ∃ s ∈ source.characters?, Json.read (String.ofList s) = .error (.limit l)

end Source

inductive Reported : Except LoadError Config → Prop
  | config (c : Config) :
    (∃ entries, c.toJson = .obj entries ∧ entries.map Prod.fst = fieldNames) →
    ofJson c.toJson = .ok c → Reported (.ok c)
  | rejected (r : Rejection) :
    (∃ cause, r.message = "Error loading NFA configuration file" ++ cause) →
    Reported (.error (.rejected r))

variable {outcome : Except LoadError Config} {source : Source} {l : Limit}

theorem exists_message_eq_append (r : Rejection) :
    ∃ cause, r.message = "Error loading NFA configuration file" ++ cause := by
  have hprefix : "Error loading NFA configuration file: " =
      "Error loading NFA configuration file" ++ ": " := by decide
  have hcause : ∃ cause, r.message = "Error loading NFA configuration file: " ++ cause := ⟨_, rfl⟩
  obtain ⟨cause, hcause⟩ := hcause
  rw [hcause, hprefix, String.append_assoc]
  exact ⟨_, rfl⟩

theorem reported_iff : Reported outcome ↔ ¬ ∃ l, outcome = .error (.limit l) := by
  constructor
  · rintro h ⟨l, rfl⟩
    cases h
  · intro h
    match outcome with
    | .ok c => exact .config c ⟨_, rfl, rfl⟩ c.ofJson_toJson
    | .error (.rejected r) => exact .rejected r (exists_message_eq_append r)
    | .error (.limit l) => exact absurd ⟨l, rfl⟩ h

theorem Source.load_eq_ok_iff [Host] {c : Config} : source.load = .ok c ↔
    ∃ s ∈ source.characters?, ∃ v, Json.read (String.ofList s) = .ok v ∧ ofJson v = .ok c := by
  cases source with
  | text s =>
    rw [load, Config.load_eq_ok_iff]
    simp [characters?]
  | bytes b =>
    rw [load, loadBytes, characters?]
    cases Utf8.decode b with
    | error fault => simp [Except.toOption]
    | ok s => simp [Except.toOption, Config.load_eq_ok_iff]

theorem load_eq_limit_iff [Host] {text : String} :
    load text = .error (.limit l) ↔ Json.read text = .error (.limit l) := by
  unfold load
  match Json.read text with
  | .error (.malformed problem place) => simp [ofRead, LoadError.ofRead]
  | .error (.limit l') => simp [ofRead, LoadError.ofRead]
  | .ok v =>
    simp only [ofRead]
    cases parse v <;> simp [Except.mapError]

theorem Source.load_eq_limit_iff [Host] : source.load = .error (.limit l) ↔ source.Meets l := by
  cases source with
  | text s =>
    rw [load, Config.load_eq_limit_iff]
    simp [Meets, characters?]
  | bytes b =>
    rw [load, loadBytes, Meets, characters?]
    cases Utf8.decode b with
    | error fault => simp [Except.toOption]
    | ok s => simp [Except.toOption, Config.load_eq_limit_iff]

theorem Source.reported_load_iff [Host] : Reported source.load ↔ ¬ ∃ l, source.Meets l := by
  simp only [reported_iff, load_eq_limit_iff]

theorem Source.exceeds_of_meets [Host] (h : source.Meets l) :
    ∃ s ∈ source.characters?, Exceeds Host.reading s := by
  obtain ⟨s, hs, hread⟩ := h
  have hexceeds := Json.exceeds_of_read hread
  rw [String.toList_ofList] at hexceeds
  exact ⟨s, hs, hexceeds⟩

end Determinizer.Config
