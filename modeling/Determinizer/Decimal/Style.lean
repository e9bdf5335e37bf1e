import Determinizer.Decimal.Shortest

/-! How the digits of a number are laid out: positionally while the exponent lies within bounds, and
with one digit before the point and an exponent otherwise. -/

namespace Determinizer.Decimal

structure Style where
  leastPositional : Int
  greatestPositional : Int
  afterInteger : String
  exponentWidth : Nat
  nan : String
  infinity : String

namespace Style

def digits (n : Nat) : List Char := Nat.toDigits 10 n

def padLeft (width : Nat) (s : List Char) : List Char :=
  List.replicate (width - s.length) '0' ++ s

def scientific (f : Style) (ds : List Char) (exponent : Int) : List Char :=
  let fraction := ds.drop 1
  let point := if fraction.isEmpty then [] else '.' :: fraction
  let sign := if exponent < 0 then '-' else '+'
  ds.take 1 ++ point ++ 'e' :: sign :: padLeft f.exponentWidth (digits exponent.natAbs)

def positional (f : Style) (ds : List Char) (exponent : Int) : List Char :=
  if exponent < 0 then '0' :: '.' :: List.replicate (-exponent - 1).toNat '0' ++ ds
  else
    let n := exponent.toNat + 1
    if ds.length ≤ n then ds ++ List.replicate (n - ds.length) '0' ++ f.afterInteger.toList
    else ds.take n ++ '.' :: ds.drop n

def layout (f : Style) (d : Scaled) : List Char :=
  let ds := digits d.digits
  let exponent := d.exponent + ds.length - 1
  if f.leastPositional ≤ exponent ∧ exponent ≤ f.greatestPositional then f.positional ds exponent
  else f.scientific ds exponent

def write (f : Style) (x : Float) : List Char :=
  let bits := x.toBits.toNat
  let size := bits % (1 <<< 63)
  let sign := if bits < 1 <<< 63 then [] else ['-']
  if infinityBits < size then f.nan.toList
  else if size = infinityBits then sign ++ f.infinity.toList
  else if size = 0 then sign ++ '0' :: f.afterInteger.toList
  else sign ++ f.layout (Double.ofBits size).shortest

end Style
end Determinizer.Decimal
