import CallFabric.Fault

namespace CallFabric

inductive StatusCode
  | ok
  | cancelled
  | unknown
  | invalidArgument
  | deadlineExceeded
  | notFound
  | alreadyExists
  | permissionDenied
  | resourceExhausted
  | failedPrecondition
  | aborted
  | outOfRange
  | unimplemented
  | internal
  | unavailable
  | dataLoss
  | unauthenticated
  deriving DecidableEq, Repr

namespace StatusCode

def table : List (StatusCode × Nat × String) :=
  [(.ok, 0, "Ok"), (.cancelled, 1, "Cancelled"), (.unknown, 2, "Unknown"),
    (.invalidArgument, 3, "InvalidArgument"), (.deadlineExceeded, 4, "DeadlineExceeded"),
    (.notFound, 5, "NotFound"), (.alreadyExists, 6, "AlreadyExists"),
    (.permissionDenied, 7, "PermissionDenied"), (.resourceExhausted, 8, "ResourceExhausted"),
    (.failedPrecondition, 9, "FailedPrecondition"), (.aborted, 10, "Aborted"),
    (.outOfRange, 11, "OutOfRange"), (.unimplemented, 12, "Unimplemented"),
    (.internal, 13, "Internal"), (.unavailable, 14, "Unavailable"), (.dataLoss, 15, "DataLoss"),
    (.unauthenticated, 16, "Unauthenticated")]

def number (c : StatusCode) : Nat :=
  ((table.find? fun (d, _, _) => d = c).map fun (_, n, _) => n).getD 2

def name (c : StatusCode) : String :=
  ((table.find? fun (d, _, _) => d = c).map fun (_, _, s) => s).getD "Unknown"

-- A number that is no code's counts as unknown.
def ofNumber (n : Int) : StatusCode :=
  ((table.find? fun (_, m, _) => (m : Int) = n).map fun (c, _, _) => c).getD .unknown

end StatusCode

structure Status where
  code : StatusCode
  message : String
  deriving DecidableEq, Repr

namespace Status

def success : Status := ⟨.ok, ""⟩

def codeFor (status : UInt16) : StatusCode :=
  if status = 400 then .invalidArgument
  else if status = 401 then .unauthenticated
  else if status = 403 then .permissionDenied
  else if status = 404 then .notFound
  else if status = 408 then .deadlineExceeded
  else if status = 500 then .internal
  else if status = 501 then .unimplemented
  else if status = 503 then .unavailable
  else .unknown

-- The message is the fault's text, so that the caller finds the fault again.
def ofFault (f : Fault) : Status := ⟨codeFor f.status, f.render⟩

def toFault (s : Status) : Fault :=
  if (Fault.fromOpening? (Bytes.ofText s.message)).isSome then .parse s.message
  else if s.code = .unavailable then .unavailable ("code = Unavailable desc = " ++ s.message)
  else .badRequest ("[rpc-client] req fail code = " ++ s.code.name ++ " desc = " ++ s.message)

end Status
end CallFabric
