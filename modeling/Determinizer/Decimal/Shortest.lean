import Determinizer.Decimal.Double

/-! The shortest decimal that reads back as a given double. On each decimal grid, from coarse to
fine, only the two neighbours of the double can be the nearest points that read back; the first
grid on which one of them does gives the digits. -/

namespace Determinizer.Decimal

structure Scaled where
  digits : Nat
  exponent : Int
deriving DecidableEq, Repr

/-- A fraction `(a, b)` such that `n * 2 ^ j / 10 ^ i = n * a / b`. -/
def gridRatio (j i : Int) : Nat × Nat :=
  (Nat.pow 10 (-i).toNat <<< j.toNat, Nat.pow 10 i.toNat <<< (-j).toNat)

namespace Double

/-- Whether a decimal lies among the reals that round to the double. All bounds are in quarters of
the unit of the last place. -/
def readsBack (x : Double) (d : Scaled) : Bool :=
  let (a, b) := gridRatio (x.exponent - 2) d.exponent
  let low := (4 * x.significand - if x.narrowBelow then 1 else 2) * a
  let high := (4 * x.significand + 2) * a
  let point := d.digits * b
  if x.significand % 2 = 0 then low ≤ point ∧ point ≤ high else low < point ∧ point < high

def onGrid? (x : Double) (exponent : Int) : Option Scaled :=
  let (a, b) := gridRatio x.exponent exponent
  let value := x.significand * a
  let lower : Scaled := ⟨value / b, exponent⟩
  let upper : Scaled := ⟨value / b + 1, exponent⟩
  match x.readsBack lower, x.readsBack upper with
  | true, false => some lower
  | false, true => some upper
  | false, false => none
  | true, true =>
    match compare (2 * (value % b)) b with
    | .lt => some lower
    | .gt => some upper
    | .eq => some (if lower.digits % 2 = 0 then lower else upper)

def topExponent (x : Double) : Int :=
  (((x.significand.log2 : Int) + x.exponent + 1) * 30103) / 100000 + 2

def shortest (x : Double) : Scaled :=
  ((List.range 24).findSome? fun (i : Nat) => x.onGrid? (x.topExponent - i)).getD
    ⟨x.significand <<< x.exponent.toNat, 0⟩

end Double
end Determinizer.Decimal
