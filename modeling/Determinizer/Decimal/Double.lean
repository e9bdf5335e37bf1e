/-! Doubles as exact numbers. A finite double is a natural number times a power of two; the reals
that round to it form an interval around it, to whose ends it is entitled if its significand is
even. Reading a fraction goes the other way: the nearest double, and of two the one with the even
significand. -/

namespace Determinizer.Decimal

/-- The positive number `significand * 2 ^ exponent`. -/
structure Double where
  significand : Nat
  exponent : Int
  narrowBelow : Bool
deriving DecidableEq, Repr

def Double.ofBits (bits : Nat) : Double :=
  let field : Nat := bits >>> 52
  let fraction : Nat := bits % (1 <<< 52)
  if field = 0 then ⟨fraction, -1074, false⟩
  else ⟨(1 <<< 52) + fraction, (field : Int) - 1075, fraction = 0 ∧ 1 < field⟩

def roundDiv (n d : Nat) : Nat :=
  let q := n / d
  match compare (2 * (n % d)) d with
  | .lt => q
  | .gt => q + 1
  | .eq => q + q % 2

def infinityBits : Nat := 2047 <<< 52

/-- The bits of the double that is nearest to `n / d`. The unit of the last place is a power of two
such that the quotient has 53 binary digits, or the least unit there is. -/
def nearestBits (n d : Nat) : Nat :=
  if n = 0 then 0
  else
    -- the quotient by this unit has 52 or 53 binary digits
    let guess : Int := (n.log2 : Int) - d.log2 - 52
    let quotient (unit : Int) : Nat := roundDiv (n <<< (-unit).toNat) (d <<< unit.toNat)
    let below (unit : Int) : Bool := n <<< (-unit).toNat < d <<< (unit.toNat + 52)
    let unit := max (if below guess then guess - 1 else guess) (-1074)
    -- a quotient that rounds up to 54 digits carries into the exponent
    min ((unit + 1074).toNat <<< 52 + quotient unit) infinityBits

def nearest (digits : Nat) (exponent : Int) : Float :=
  let size : Int := (digits.log2 : Int) + exponent * 3
  let bits :=
    if digits = 0 then 0
    else if 0 < exponent ∧ 2000 < size then infinityBits
    else if exponent < 0 ∧ size < -2000 then 0
    else nearestBits (digits * Nat.pow 10 exponent.toNat) (Nat.pow 10 (-exponent).toNat)
  Float.ofBits bits.toUInt64

end Determinizer.Decimal
