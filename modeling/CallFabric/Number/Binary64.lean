namespace CallFabric

structure Binary64 where
  bits : UInt64
  deriving DecidableEq, Repr, Inhabited

namespace Binary64

def ofFloat (x : Float) : Binary64 := ⟨x.toBits⟩

def toFloat (x : Binary64) : Float := Float.ofBits x.bits

def zero : Binary64 := ⟨0⟩

def isNegative (x : Binary64) : Bool :=
  x.bits >>> 63 = 1

def exponentField (x : Binary64) : Nat :=
  (x.bits >>> 52).toNat % 2048

def fraction (x : Binary64) : Nat :=
  x.bits.toNat % 0x10000000000000

def isFinite (x : Binary64) : Bool :=
  x.exponentField ≠ 2047

-- A finite number is `significand * 2 ^ exponent`, up to its sign.
def significand (x : Binary64) : Nat :=
  if x.exponentField = 0 then x.fraction else 0x10000000000000 + x.fraction

def exponent (x : Binary64) : Int :=
  if x.exponentField = 0 then -1074 else x.exponentField - 1075

end Binary64
end CallFabric
