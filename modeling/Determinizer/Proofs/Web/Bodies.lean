import Determinizer.Proofs.Encoding.Detection
import Determinizer.Proofs.Json.RoundTrip
import Determinizer.Proofs.Outcome
import Determinizer.Web.Service

/-! Values in the bodies of requests. A body of bytes is read unless it is too large, and what is
read is the value that is written in it: in some encoding of Unicode, and nested no deeper than the
call allows. -/

namespace Determinizer.Web

open Encoding (Utf8.encode)
open Json (Fits)

/-- A body that is taken in. Of a form taken apart the size is not known any more. -/
def Body.WithinLimit : Body → Prop
  | .raw bytes => bytes.length ≤ maxBodyBytes
  | .form _ _ => True

variable [Host]

def Body.characters? : Body → Option (List Char)
  | .raw bytes => (Encoding.decode bytes).toOption
  | .form _ _ => none

/-- A value is written in a body, and no surrogate that stands alone: the value is the same whatever
is read in the place of one. -/
def Body.Denotes (b : Body) (v : Json) : Prop :=
  ∀ lone, ∃ s, @characters? (Host.withLone lone) b = some s ∧
    @Json.readChars (Host.withLone lone) s = .ok v

def Body.Offers (b : Body) (v : Json) : Prop :=
  ∃ entries, b.readObject = .ok (.obj entries) ∧ entries.lookup "nfa" = some v

def Failure.ofRead : Json.ReadError → Failure
  | .limit (.depth container) => .broken (.limit (.depth container))
  | e => .refused (.unreadable e)

variable {b : Body} {v : Json} {c : Config} {entries : List (String × Json)}

theorem Body.read_of_characters (hb : b.WithinLimit) {s : List Char}
    (hs : b.characters? = some s) : b.read = (Json.readChars s).mapError Failure.ofRead := by
  cases b with
  | form charset parts => cases hs
  | raw bytes =>
    have hsize : checkSize bytes = .ok bytes := if_neg (Nat.not_lt.2 hb)
    rw [characters?] at hs
    simp only [read, hsize, bind, Except.bind]
    cases hdecode : Encoding.decode bytes with
    | error fault =>
      rw [hdecode] at hs
      cases hs
    | ok s' =>
      rw [hdecode] at hs
      cases hs
      dsimp only
      split
      · next hread => rw [hread]; rfl
      · next e hlimit hread =>
        rw [hread, Except.mapError, Failure.ofRead]
        exact hlimit
      · next hread => rw [hread]; rfl

theorem Body.read_of_no_characters (hb : b.WithinLimit) (hs : b.characters? = none) :
    ∃ refusal, b.read = .error (.refused refusal) := by
  cases b with
  | form charset parts => exact ⟨_, rfl⟩
  | raw bytes =>
    have hsize : checkSize bytes = .ok bytes := if_neg (Nat.not_lt.2 hb)
    rw [characters?] at hs
    simp only [read, hsize, bind, Except.bind]
    cases hdecode : Encoding.decode bytes with
    | error fault => exact ⟨_, rfl⟩
    | ok s =>
      rw [hdecode] at hs
      cases hs

theorem Body.read_of_too_large (hb : ¬ b.WithinLimit) :
    b.read = .error (.broken (.body .tooLarge)) := by
  cases b with
  | form charset parts => exact absurd trivial hb
  | raw bytes =>
    have hsize : checkSize bytes = .error (.broken (.body .tooLarge)) := if_pos (Nat.not_le.1 hb)
    simp only [read, hsize, bind, Except.bind]

theorem Body.read_eq_ok_iff (hb : b.WithinLimit) :
    b.read = .ok v ↔ ∃ s ∈ b.characters?, Json.readChars s = .ok v := by
  cases hs : b.characters? with
  | none =>
    obtain ⟨refusal, hread⟩ := read_of_no_characters hb hs
    simp [hread]
  | some s => simp [read_of_characters hb hs, mapError_eq_ok]

theorem Body.Denotes.read (h : b.Denotes v) (hb : b.WithinLimit) : b.read = .ok v :=
  (read_eq_ok_iff hb).2 (h Host.lone)

theorem Body.Denotes.readObject (h : b.Denotes (.obj entries)) (hb : b.WithinLimit) :
    b.readObject = .ok (.obj entries) := by
  rw [Body.readObject, h.read hb]
  rfl

theorem Body.Denotes.offers (h : b.Denotes (.obj entries)) (hb : b.WithinLimit)
    (hv : entries.lookup "nfa" = some v) : b.Offers v :=
  ⟨entries, h.readObject hb, hv⟩

theorem Body.characters?_encode_ascii {c d : Char} {s : List Char}
    (hc : 0 < c.toNat ∧ c.toNat < 0x80) (hd : 0 < d.toNat ∧ d.toNat < 0x80) :
    (Body.raw (Utf8.encode (c :: d :: s))).characters? = some (c :: d :: s) :=
  congrArg Except.toOption (Encoding.decode_encode_ascii s hc hd)

theorem Body.characters?_compact (entries : List (String × Json)) :
    (Body.raw (Utf8.encode (Json.obj entries).compact.toList)).characters? =
      some (Json.obj entries).compact.toList := by
  rw [Json.compact, String.toList_ofList]
  cases entries with
  | nil => exact characters?_encode_ascii (d := '\x7d') (by decide) (by decide)
  | cons e entries => exact characters?_encode_ascii (d := '"') (by decide) (by decide)

theorem Body.denotes_compact (hfits : Fits Host.reading (.obj entries))
    (hfloats : ∀ g, (Json.obj entries).mapFloats g = .obj entries) :
    (Body.raw (Utf8.encode (Json.obj entries).compact.toList)).Denotes (.obj entries) := by
  intro lone
  have hread := @Json.read_write_of_mapFloats (Host.withLone lone) _ hfits hfloats
  exact ⟨_, @characters?_compact (Host.withLone lone) entries,
    @Json.readChars_of_read (Host.withLone lone) _ _ hread.2⟩

theorem Body.readObject_compact (hfits : Fits Host.reading (.obj entries))
    (hfloats : ∀ g, (Json.obj entries).mapFloats g = .obj entries)
    (hsize : (Utf8.encode (Json.obj entries).compact.toList).length ≤ maxBodyBytes) :
    (Body.raw (Utf8.encode (Json.obj entries).compact.toList)).readObject = .ok (.obj entries) :=
  (denotes_compact hfits hfloats).readObject hsize

theorem Body.offers_compact {depth : Nat} (hfits : Fits depth v) (hdepth : depth < Host.reading)
    (hfloats : ∀ g, v.mapFloats g = v)
    (hsize : (Utf8.encode (Json.obj [("nfa", v)]).compact.toList).length ≤ maxBodyBytes) :
    (Body.raw (Utf8.encode (Json.obj [("nfa", v)]).compact.toList)).Offers v := by
  have hobject : Fits (depth + 1) (.obj [("nfa", v)]) := by simpa using hfits
  exact ⟨_, readObject_compact (hobject.mono hdepth) (fun g => by simp [hfloats g]) hsize, rfl⟩

theorem Body.readNfa_of_offers (h : b.Offers v) :
    b.readNfa = if v.truthy then (Config.parse v).mapError fun r => .refused (.rejected r)
      else .error (.refused .missingNfa) := by
  obtain ⟨entries, hread, hlookup⟩ := h
  have hfield : (Json.obj entries).field? "nfa" = some v := hlookup
  simp only [Body.readNfa, hread, bind, Except.bind, hfield]
  rfl

omit [Host] in
theorem truthy_of_parse (hc : Config.parse v = .ok c) : v.truthy = true := by
  have hshape := mapError_eq_ok.1 hc
  cases v with
  | obj entries =>
    cases entries with
    | nil => cases hshape
    | cons e entries => rfl
  | _ => cases hshape

theorem Body.readNfa_of_parse (h : b.Offers v) (hc : Config.parse v = .ok c) :
    b.readNfa = .ok c := by
  rw [Body.readNfa_of_offers h, if_pos (truthy_of_parse hc), hc]
  rfl

section Long

def longText (n : Nat) : String := String.ofList (List.replicate n 'x')

omit [Host] in
theorem quote_longText (n : Nat) :
    Json.Layout.compact.quote (longText n) = '"' :: (List.replicate n 'x' ++ ['"']) := by
  have hescape : (List.replicate n 'x').flatMap Json.Layout.compact.escape =
      List.replicate n 'x' := by
    induction n with
    | zero => rfl
    | succ n ih =>
      rw [List.replicate_succ, List.flatMap_cons, ih]
      rfl
  rw [Json.Layout.quote, longText, String.toList_ofList, hescape]
  rfl

omit [Host] in
theorem length_encode_quote_longText (n : Nat) :
    (Utf8.encode (Json.Layout.compact.quote (longText n))).length = n + 2 := by
  have hencode : (Utf8.encode (List.replicate n 'x')).length = n := by
    induction n with
    | zero => rfl
    | succ n ih => exact congrArg (· + 1) ih
  rw [quote_longText, ← List.singleton_append, Encoding.Utf8.encode_append,
    Encoding.Utf8.encode_append, List.length_append, List.length_append, hencode, Nat.add_comm]
  rfl

omit [Host] in
theorem lt_length_encode_of_infix {n : Nat} {s : List Char}
    (h : Json.Layout.compact.quote (longText n) <:+: s) : n < (Utf8.encode s).length := by
  obtain ⟨before, after, rfl⟩ := h
  rw [Encoding.Utf8.encode_append, Encoding.Utf8.encode_append, List.length_append,
    List.length_append, length_encode_quote_longText]
  omega

end Long

end Determinizer.Web
