import CallFabric.Number.Binary64
import CallFabric.Number.Digits

namespace CallFabric

-- `digits * 10 ^ exponent`, no zero at the end of `digits` unless it is zero.
structure Decimal where
  digits : Nat
  exponent : Int
  deriving DecidableEq, Repr

namespace Decimal

def normalize : Nat → Decimal → Decimal
  | 0, d => d
  | fuel + 1, d =>
    if d.digits ≠ 0 ∧ d.digits % 10 = 0 then normalize fuel ⟨d.digits / 10, d.exponent + 1⟩ else d

end Decimal

namespace Binary64

-- The numbers that round to `center / scale`: from `low / scale` to `high / scale`, the ends
-- among them when `closed`.
structure Interval where
  low : Nat
  center : Nat
  high : Nat
  scale : Nat
  closed : Bool

def interval (x : Binary64) : Interval :=
  let m := 4 * x.significand
  let below := if x.fraction = 0 ∧ 1 < x.exponentField then 1 else 2
  let e := x.exponent - 2
  let up := Nat.pow 2 e.toNat
  ⟨(m - below) * up, m * up, (m + 2) * up, Nat.pow 2 (-e).toNat, x.significand % 2 = 0⟩

namespace Interval

def holds (i : Interval) (num den d : Nat) : Bool :=
  let p := d * num * i.scale
  if i.closed then i.low * den ≤ p && p ≤ i.high * den else i.low * den < p && p < i.high * den

def stepsTo (least : Nat) : Nat → Nat → Nat
  | 0, _ => 0
  | fuel + 1, n => if least ≤ n then 0 else stepsTo least fuel (n * 10) + 1

def magnitude (i : Interval) : Int :=
  if i.scale ≤ i.center then ((digits (i.center / i.scale)).length : Int) - 1
  else -(stepsTo i.scale 400 i.center : Int)

-- On the grid of step `10 ^ k` the neighbour of the center that lies in the interval, the nearer
-- of two, the even one of two that are equally near.
def onGrid? (i : Interval) (k : Int) : Option Nat :=
  let num := Nat.pow 10 k.toNat
  let den := Nat.pow 10 (-k).toNat
  let d := i.center * den / (i.scale * num)
  match i.holds num den d, i.holds num den (d + 1) with
  | true, true =>
    let twice := 2 * i.center * den
    let middle := (2 * d + 1) * num * i.scale
    if twice < middle then some d
    else if middle < twice then some (d + 1)
    else some (if d % 2 = 0 then d else d + 1)
  | true, false => some d
  | false, true => some (d + 1)
  | false, false => none

def search (i : Interval) (magnitude : Int) : Nat → Nat → Decimal
  | 0, _ => ⟨0, 0⟩
  | fuel + 1, count =>
    let k := magnitude + 1 - count
    match i.onGrid? k with
    | some d => Decimal.normalize 20 ⟨d, k⟩
    | none => search i magnitude fuel (count + 1)

end Interval

def shortest (x : Binary64) : Decimal :=
  if x.significand = 0 then ⟨0, 0⟩
  else
    let i := x.interval
    i.search i.magnitude 18 1

end Binary64
end CallFabric
