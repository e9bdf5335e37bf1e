/-! Base64: three bytes as four characters of six bits each, with equals signs where bytes are
missing. Reading skips whatever is no character of the alphabet. -/

namespace Determinizer.Encoding.Base64

def digit (n : Nat) : Char :=
  if n < 26 then Char.ofNat ('A'.toNat + n)
  else if n < 52 then Char.ofNat ('a'.toNat + (n - 26))
  else if n < 62 then Char.ofNat ('0'.toNat + (n - 52))
  else if n = 62 then '+'
  else '/'

def digitValue? (b : UInt8) : Option Nat :=
  let c := Char.ofNat b.toNat
  if 'A' ≤ c ∧ c ≤ 'Z' then some (c.toNat - 'A'.toNat)
  else if 'a' ≤ c ∧ c ≤ 'z' then some (c.toNat - 'a'.toNat + 26)
  else if '0' ≤ c ∧ c ≤ '9' then some (c.toNat - '0'.toNat + 52)
  else if c = '+' then some 62
  else if c = '/' then some 63
  else none

def encode : List UInt8 → List Char
  | [] => []
  | [a] => [digit (a.toNat / 4), digit (a.toNat % 4 * 16), '=', '=']
  | [a, b] =>
    [ digit (a.toNat / 4), digit (a.toNat % 4 * 16 + b.toNat / 16), digit (b.toNat % 16 * 4), '=' ]
  | a :: b :: c :: bytes =>
    digit (a.toNat / 4) :: digit (a.toNat % 4 * 16 + b.toNat / 16) ::
      digit (b.toNat % 16 * 4 + c.toNat / 64) :: digit (c.toNat % 64) :: encode bytes

/-- Reads on with `count` characters of a group read, whose last bits make `bits`, and `pads` equals
signs after them. Equals signs that complete a group end the text; a group may not stay open. -/
def decodeFrom (done : List UInt8) (count bits pads : Nat) : List UInt8 → Option (List UInt8)
  | [] => if count = 0 then some done.reverse else none
  | b :: bytes =>
    if b = '='.toUInt8 then
      if count < 2 then decodeFrom done count bits pads bytes
      else if 4 ≤ count + pads + 1 then some done.reverse
      else decodeFrom done count bits (pads + 1) bytes
    else
      match digitValue? b with
      | none => decodeFrom done count bits pads bytes
      | some v =>
        if count = 0 then decodeFrom done 1 v 0 bytes
        else
          let unit := 4 ^ (3 - count)
          let n := bits * 64 + v
          decodeFrom ((n / unit).toUInt8 :: done) ((count + 1) % 4) (n % unit) 0 bytes

def decode? (bytes : List UInt8) : Option (List UInt8) := decodeFrom [] 0 0 0 bytes

end Determinizer.Encoding.Base64
