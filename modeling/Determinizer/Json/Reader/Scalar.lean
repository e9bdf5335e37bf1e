import Determinizer.Decimal.Double
import Determinizer.Json.Basic
import Determinizer.Json.Reader.Basic

/-! Reading numbers and words. Beyond the standard, `NaN`, `Infinity` and `-Infinity` are numbers. A
fraction or an exponent counts only if it has a digit; what does not count is left over. -/

namespace Determinizer.Json

def isDigit (c : Char) : Bool := '0' ≤ c && c ≤ '9'

def digitsValue (ds : List Char) : Nat := ds.foldl (fun n c => n * 10 + (c.toNat - '0'.toNat)) 0

def takeDigits (s : List Char) : List Char × List Char := (s.takeWhile isDigit, s.dropWhile isDigit)

theorem length_takeDigits_le (s : List Char) : (takeDigits s).2.length ≤ s.length :=
  (List.dropWhile_suffix _).length_le

def integerPart? : (s : List Char) → Option (List Char × Below s)
  | '0' :: r => some (['0'], ⟨r, by simp⟩)
  | c :: r =>
    if isDigit c then
      some (c :: (takeDigits r).1, ⟨(takeDigits r).2, Nat.lt_succ_of_le (length_takeDigits_le r)⟩)
    else none
  | [] => none

def fractionPart? : (s : List Char) → Option (List Char × Below s)
  | '.' :: c :: r =>
    if isDigit c then
      some (c :: (takeDigits r).1, ⟨(takeDigits r).2, by
        have := length_takeDigits_le r
        simp only [List.length_cons]
        omega⟩)
    else none
  | _ => none

def takeMinus : List Char → Bool × List Char
  | '-' :: r => (true, r)
  | r => (false, r)

def takeSign : List Char → Bool × List Char
  | '+' :: r => (false, r)
  | r => takeMinus r

theorem length_takeMinus_le (s : List Char) : (takeMinus s).2.length ≤ s.length := by
  unfold takeMinus
  split <;> simp

theorem length_takeSign_le (s : List Char) : (takeSign s).2.length ≤ s.length := by
  unfold takeSign
  split
  · simp
  · exact length_takeMinus_le _

def exponentPart? : (s : List Char) → Option (Int × Below s)
  | e :: r =>
    let t := (takeSign r).2
    let ds := (takeDigits t).1
    let value : Int := digitsValue ds
    if (e = 'e' ∨ e = 'E') ∧ ds ≠ [] then
      some (if (takeSign r).1 then -value else value, ⟨(takeDigits t).2,
        Nat.lt_succ_of_le (Nat.le_trans (length_takeDigits_le t) (length_takeSign_le r))⟩)
    else none
  | [] => none

def numeralValue (negative : Bool) (integer : List Char) (fraction : Option (List Char))
    (exponent : Option Int) : Except Stop Json :=
  if fraction.isNone ∧ exponent.isNone then
    if maxDigits < integer.length then .error (.limit (.digits integer.length))
    else
      let n : Int := digitsValue integer
      .ok (int (if negative then -n else n))
  else
    let places := fraction.getD []
    let x := Decimal.nearest (digitsValue (integer ++ places)) (exponent.getD 0 - places.length)
    .ok (float (if negative then -x else x))

abbrev UpTo (s : List Char) := { r : List Char // r.length ≤ s.length }

def optional {α : Type} (part? : (s : List Char) → Option (α × Below s)) (s : List Char) :
    Option α × UpTo s :=
  match part? s with
  | some (a, ⟨r, h⟩) => (some a, ⟨r, Nat.le_of_lt h⟩)
  | none => (none, ⟨s, Nat.le_refl _⟩)

def numeral (s : List Char) : Except Stop (Json × Below s) :=
  match integerPart? (takeMinus s).2 with
  | none => .error (.malformed .expectedValue s.length)
  | some (integer, ⟨r, hr⟩) =>
    let (fraction, ⟨t, ht⟩) := optional fractionPart? r
    let (exponent, ⟨u, hu⟩) := optional exponentPart? t
    match numeralValue (takeMinus s).1 integer fraction exponent with
    | .error e => .error e
    | .ok v => .ok (v, ⟨u, by have := length_takeMinus_le s; omega⟩)

def nan : Float := Float.ofBits 0x7ff8000000000000

def infinity : Float := Float.ofBits 0x7ff0000000000000

def words : List (String × Json) :=
  [ ("null", null), ("true", bool true), ("false", bool false),
    ("NaN", float nan), ("Infinity", float infinity), ("-Infinity", float (-infinity)) ]

def word? (s : List Char) : Option (Json × Nat) :=
  (words.find? fun w => w.1.toList.isPrefixOf s).map fun w => (w.2, w.1.length)

def scalar (s : List Char) : Except Stop (Json × Below s) :=
  match word? s with
  | some (v, k) =>
    if h : 0 < k ∧ 0 < s.length then .ok (v, ⟨s.drop k, by rw [List.length_drop]; omega⟩)
    else .error (.malformed .expectedValue s.length)
  | none => numeral s

end Determinizer.Json
