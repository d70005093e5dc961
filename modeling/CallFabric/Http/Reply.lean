import CallFabric.Fault

namespace CallFabric

structure Reply where
  status : Nat
  contentType : Option String
  nosniff : Bool
  body : Bytes
  deriving DecidableEq, Repr

namespace Reply

def jsonUtf8 : String := "application/json; charset=utf-8"

def ofJson (body : Bytes) : Reply := ⟨200, some jsonUtf8, false, body⟩

-- A status outside of HTTP's range becomes an internal error.
def httpStatus (status : UInt16) : Nat :=
  if 100 ≤ status ∧ status < 1000 then status.toNat else 500

def ofFault (f : Fault) : Reply :=
  ⟨httpStatus f.status, some jsonUtf8, true, f.text ++ [0x0a]⟩

def ofExcept : Except Fault Bytes → Reply
  | .ok body => ofJson body
  | .error f => ofFault f

end Reply
end CallFabric
