import Determinizer.Encoding.Basic

/-! UTF-8. The leading byte of a sequence fixes how many bytes follow and in which ranges they lie;
the ranges leave out overlong forms, surrogates and numbers above the last code point. A sequence
that breaks off is at fault as far as its bytes fit. Reading ends at the first fault or goes on
behind it, as the caller wants; where the caller names a character for them, surrogates in the form
of other characters are no fault. -/

namespace Determinizer.Encoding.Utf8

def lead? (b : Nat) : Option (Nat × List (Nat × Nat)) :=
  let any := (0x80, 0xbf)
  if b < 0x80 then some (b, [])
  else if b < 0xc2 then none
  else if b < 0xe0 then some (b % 32, [any])
  else if b = 0xe0 then some (0, [(0xa0, 0xbf), any])
  else if b = 0xed then some (13, [(0x80, 0x9f), any])
  else if b < 0xf0 then some (b % 16, [any, any])
  else if b = 0xf0 then some (0, [(0x90, 0xbf), any, any])
  else if b < 0xf4 then some (b % 8, [any, any, any])
  else if b = 0xf4 then some (4, [(0x80, 0x8f), any, any])
  else none

/-- How many bytes fit their ranges, and the number that they make with the bits before them. -/
def follow : List (Nat × Nat) → Nat → List UInt8 → Nat × Nat
  | (low, high) :: ranges, n, b :: bytes =>
    if low ≤ b.toNat ∧ b.toNat ≤ high then
      let (k, m) := follow ranges (n * 64 + b.toNat % 64) bytes
      (k + 1, m)
    else (0, n)
  | _, n, _ => (0, n)

def startsSurrogate (bytes : List UInt8) : Bool :=
  (follow [(0xed, 0xed), (0xa0, 0xbf), (0x80, 0xbf)] 0 bytes).1 = 3

def decodeFrom (lone : Option Char) (position : Nat) (done : List Char) :
    List UInt8 → Except Fault (List Char)
  | [] => .ok done.reverse
  | b :: bytes =>
    match lead? b.toNat with
    | none => .error ⟨.utf8, position, 1, b, .invalidStart⟩
    | some (bits, ranges) =>
      let (k, n) := follow ranges bits bytes
      if k = ranges.length then
        decodeFrom lone (position + k + 1) (Char.ofNat n :: done) (bytes.drop k)
      else
        match lone.filter fun _ => startsSurrogate (b :: bytes) with
        | some c => decodeFrom lone (position + 3) (c :: done) (bytes.drop 2)
        | none =>
          let reason := if bytes.length = k then .unexpectedEnd else .invalidContinuation
          .error ⟨.utf8, position, k + 1, b, reason⟩
termination_by bytes => bytes.length
decreasing_by all_goals (simp only [List.length_drop, List.length_cons]; omega)

def decode (bytes : List UInt8) : Except Fault (List Char) := decodeFrom none 0 [] bytes

def recover : List UInt8 → List Char
  | [] => []
  | b :: bytes =>
    match lead? b.toNat with
    | none => '\ufffd' :: recover bytes
    | some (bits, ranges) =>
      let (k, n) := follow ranges bits bytes
      let c := if k = ranges.length then Char.ofNat n else '\ufffd'
      c :: recover (bytes.drop k)
termination_by bytes => bytes.length
decreasing_by all_goals (simp only [List.length_drop, List.length_cons]; omega)

def encodeChar (c : Char) : List UInt8 :=
  let n := c.toNat
  let tail (k : Nat) : UInt8 := (0x80 + (n >>> (6 * k)) % 64).toUInt8
  if n < 0x80 then [n.toUInt8]
  else if n < 0x800 then [(0xc0 + n >>> 6).toUInt8, tail 0]
  else if n < 0x10000 then [(0xe0 + n >>> 12).toUInt8, tail 1, tail 0]
  else [(0xf0 + n >>> 18).toUInt8, tail 2, tail 1, tail 0]

def encode (s : List Char) : List UInt8 := s.flatMap encodeChar

end Determinizer.Encoding.Utf8
