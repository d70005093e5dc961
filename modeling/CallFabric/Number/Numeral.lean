import CallFabric.Number.Binary64
import CallFabric.Number.Digits

namespace CallFabric

structure Numeral where
  negative : Bool
  whole : List Nat
  fraction : List Nat
  exponent : Option (Bool × List Nat)
  deriving DecidableEq, Repr

inductive Number
  | int (i : Int)
  | float (x : Binary64)
  deriving DecidableEq, Repr

namespace Numeral

def greatest : Nat := 0xffffffffffffffff

def accumulate (n : Nat) : List Nat → Nat × List Nat
  | [] => (n, [])
  | d :: ds => if n * 10 + d ≤ greatest then accumulate (n * 10 + d) ds else (n, d :: ds)

def greatestPower : Nat := 308

def powerOfTen (n : Nat) : Float :=
  Float.ofScientific 1 false n

-- `f * 10 ^ e` in at most one rounding per 308 powers; nothing where it overflows.
def scaled (f : Float) (e : Int) : Option Float :=
  if e.natAbs ≤ greatestPower then
    if 0 ≤ e then
      let r := f * powerOfTen e.toNat
      if r.isInf then none else some r
    else some (f / powerOfTen (-e).toNat)
  else if f == 0 then some f
  else if 0 ≤ e then none
  else scaled (f / powerOfTen greatestPower) (e + greatestPower)
termination_by e.natAbs
decreasing_by simp only [greatestPower] at *; omega

def signed (negative : Bool) (f : Float) : Binary64 :=
  .ofFloat (if negative then -f else f)

-- The number, nothing where its magnitude is beyond the greatest float. Digits that do not fit
-- sixty-four bits count by their place only.
def value? (n : Numeral) : Option Number :=
  let (significand, beyond) := accumulate 0 n.whole
  if beyond.isEmpty && n.fraction.isEmpty && n.exponent.isNone then
    if !n.negative then some (.int significand)
    else if significand = 0 ∨ 0x8000000000000000 < significand then
      some (.float (signed true (UInt64.ofNat significand).toFloat))
    else some (.int (-significand))
  else
    let (significand, unread) := accumulate significand n.fraction
    let shift : Int := beyond.length - (n.fraction.length - unread.length : Nat)
    let written : Int := match n.exponent with
      | none => 0
      | some (minus, ds) => if minus then -(ofDigits ds) else ofDigits ds
    (scaled (UInt64.ofNat significand).toFloat (shift + written)).map fun f =>
      .float (signed n.negative f)

end Numeral
end CallFabric
