import CallFabric.Fault

namespace CallFabric

-- A failure with a number of its own; a project's numbers start at its thousands.
structure BusinessError where
  code : Int32
  message : String
  deriving DecidableEq, Repr

namespace BusinessError

def ofProject (project code : Int32) (message : String) : BusinessError :=
  ⟨project * 1000 + code, message⟩

def ok : BusinessError := ⟨0, "OK"⟩
def fail : BusinessError := ⟨-1, "FAIL"⟩
def badParameter : BusinessError := ⟨-2, "PARAM ERROR"⟩
def system : BusinessError := ⟨-3, "SYSTEM ERROR"⟩

def isOk (e : BusinessError) : Bool := e.code = 0

def withMessage (e : BusinessError) (message : String) : BusinessError := ⟨e.code, message⟩

def toJson (e : BusinessError) : Json :=
  .obj [("code", .int e.code.toInt), ("msg", .str e.message)]

def shape : Shape := .record [("code", .i32), ("msg", .text)]

def ofText? (bs : Bytes) : Option BusinessError :=
  (shape.ofText? bs).map fun d => ⟨.ofInt (d.intField "code"), d.textField "msg"⟩

def describe (e : BusinessError) : String :=
  "errno " ++ toString e.code.toInt ++ ": " ++ e.message

end BusinessError

inductive HandlerError
  | business (e : BusinessError)
  | fault (f : Fault)
  | other (message : String)
  deriving DecidableEq, Repr

namespace HandlerError

def describe : HandlerError → String
  | .business e => e.describe
  | .fault f => f.render
  | .other message => message

def callCode : Int32 := -2

def toFault : HandlerError → Fault
  | .business e => .business e.code e.message
  | .fault f => f
  | .other message => .business callCode ("call error: " ++ message)

end HandlerError
end CallFabric
