import CallFabric.Service.Call

namespace CallFabric.Demo

open Service

def idRecord (i : Int) : Datum := .record [("id", .int i)]

def unchecked (shape : Shape) (initial : Datum) : Request := ⟨shape, initial, fun _ => none⟩

def idRequest : Request where
  shape := .record [("id", .i64)]
  initial := idRecord 0
  violation d := if d.intField "id" < 0 then some "id must not be negative" else none

def wrap64 (i : Int) : Int := i.bmod 0x10000000000000000

def refresh (d : Datum) : Datum := idRecord (wrap64 (d.intField "id" + 100000))

def profile : Shape :=
  .record [("id", .i64), ("name", .text), ("tags", .list .text), ("avatar", .list .u8)]

def profileInitial : Datum :=
  .record [("id", .int 0), ("name", .text ""), ("tags", .list []), ("avatar", .list [])]

def tooManyTags (d : Datum) : Bool :=
  3 < (((d.field? "tags").map Datum.asItems).getD []).length

def profileRequest : Request where
  shape := profile
  initial := profileInitial
  violation d :=
    let name := d.textField "name"
    if 8 < name.length then some ("name too long: " ++ name)
    else if tooManyTags d then some "too many tags"
    else none

def mode : Shape :=
  .choice [("Fast", .unit), ("Slow", .u32), ("Custom", .record [("n", .i32)])]

def inner : Shape := .record [("a", .i32), ("b", .option .text), ("m", .map .i64)]

def settings : Shape :=
  .record [("level", .u8), ("ratio", .float), ("mode", mode), ("inner", inner), ("flag", .bool),
    ("pair", .tuple [.i32, .text])]

def settingsInitial : Datum :=
  .record [("level", .int 3), ("ratio", .float (.ofFloat 0.5)),
    ("mode", .tagged "Custom" (.record [("n", .int 1)])),
    ("inner", .record [("a", .int (-1)), ("b", .absent), ("m", .map [("x", .int 1)])]),
    ("flag", .bool true), ("pair", .tuple [.int 0, .text "p"])]

def unwritable : Datum := .keyed [(.tuple [.int 1, .int 2], .int 3)]

def sleepRequest : Request :=
  unchecked (.record [("millis", .u64)]) (.record [("millis", .int 0)])

def sleep (d : Datum) : Work :=
  let millis := d.intField "millis"
  ⟨some (millis.toNat * millisecond), .value (idRecord (wrap64 millis))⟩

def failure : Shape :=
  .record [("kind", .text), ("project", .i32), ("code", .i32), ("status", .u16), ("msg", .text)]

def failureInitial : Datum :=
  .record [("kind", .text ""), ("project", .int 0), ("code", .int 0), ("status", .int 0),
    ("msg", .text "")]

-- Fails as the request says; a kind that names no way to fail succeeds.
def fail (d : Datum) : Completion Unit :=
  let project : Int32 := .ofInt (d.intField "project")
  let code : Int32 := .ofInt (d.intField "code")
  let message := d.textField "msg"
  match d.textField "kind" with
  | "errno" => .error (.business (.ofProject project code message))
  | "errno_code" => .error (.business ⟨code, message⟩)
  | "net" => .error (.fault ⟨code, .ofNat (d.intField "status").toNat, message⟩)
  | "io" | "string" | "str" => .error (.other message)
  | "panic" => .panic (.text message)
  | "panic_str" => .panic (.text "static text")
  | "panic_any" => .panic .other
  | _ => .value ()

def asUnit : Completion Unit → Completion Datum
  | .value () => .value .unit
  | .error e => .error e
  | .panic p => .panic p

def viewJson (v : CallView) : Json :=
  .obj [("cancelled", .bool v.cancelled), ("has_deadline", .bool v.hasDeadline),
    ("metadata", .obj (v.metadata.entries.mapValues .str))]

def any : Request := unchecked .any (.json .null)

def echo : Strategy := fun _ _ signals =>
  match signals with
  | .received (some payload) :: _ => .send payload
  | .received none :: _ => .succeed
  | .receiveFailed f :: _ | .sendFailed f :: _ => .fail f
  | .sent :: _ | [] => .receive

def echoProfiles : Strategy := fun codec _ signals =>
  match signals with
  | .received (some payload) :: _ =>
    .withDatum codec profile payload (.sendDatum codec)
  | .received none :: _ => .succeed
  | .receiveFailed f :: _ | .sendFailed f :: _ => .fail f
  | .sent :: _ | [] => .receive

def failOnFirst : Strategy := fun codec _ signals =>
  match signals with
  | [] => .receive
  | .received (some payload) :: _ =>
    .withDatum codec failure payload fun d => .finish (fail d)
  | .received none :: _ => .finish (fail failureInitial)
  | .receiveFailed f :: _ | .sendFailed f :: _ => .fail f
  | .sent :: _ => .succeed

def showView : Strategy := fun codec view signals =>
  match signals with
  | [] => .sendDatum codec (.json (viewJson view))
  | .sendFailed f :: _ => .fail f
  | _ => .succeed

def showViewAndHold : Strategy := fun codec view signals =>
  match signals with
  | [] => .sendDatum codec (.json (viewJson view))
  | .sendFailed f :: _ | .receiveFailed f :: _ => .fail f
  | .sent :: _ | .received (some _) :: _ => .receive
  | .received none :: _ => .succeed

def silent : Strategy := fun _ _ _ => .succeed

def countRequest : Request where
  shape := .record [("n", .u32)]
  initial := .record [("n", .int 0)]
  violation d :=
    let n := d.intField "n"
    if 1000 < n then some ("n too large: " ++ toString n) else none

def count (d : Datum) : Strategy := fun codec _ signals =>
  match signals with
  | .sendFailed f :: _ | .receiveFailed f :: _ => .fail f
  | _ =>
    if (signals.length : Int) < d.intField "n" then .sendDatum codec (idRecord signals.length)
    else .succeed

def sendThenFail (d : Datum) : Strategy := fun codec _ signals =>
  match signals with
  | [] => .sendDatum codec (idRecord 0)
  | .sendFailed f :: _ => .fail f
  | _ => .finish (fail d)

def streamType : String := "ServerStream"

def method? (name behaviour : String) : Option Method :=
  let replies (request : String) (reply : String) (r : Request)
      (run : CallView → Datum → Work) : Option Method :=
    some ⟨name, request, reply, .unary r run⟩
  let streams (next : Strategy) : Option Method :=
    some ⟨name, streamType, streamType, .duplex next⟩
  let sends (request : String) (r : Request) (next : Datum → Strategy) : Option Method :=
    some ⟨name, request, streamType, .serverStream r next⟩
  match behaviour with
  | "refresh" => replies "IdReq" "IdResp" idRequest fun _ d => .now (.value (refresh d))
  | "echo" => replies "Value" "Value" any fun _ d => .now (.value d)
  | "profile" => replies "Profile" "Profile" profileRequest fun _ d => .now (.value d)
  | "settings" => replies "Settings" "Settings" (unchecked settings settingsInitial)
      fun _ d => .now (.value d)
  | "map" => replies "BTreeMap" "BTreeMap" (unchecked (.map .i64) (.map []))
      fun _ d => .now (.value d)
  | "nothing" => replies "()" "()" (unchecked .unit .unit) fun _ _ => .now (.value .unit)
  | "badkey" => replies "Value" "BTreeMap" any fun _ _ => .now (.value unwritable)
  | "sleep" => replies "SleepReq" "IdResp" sleepRequest fun _ d => sleep d
  | "fail" => replies "FailReq" "()" (unchecked failure failureInitial)
      fun _ d => .now (asUnit (fail d))
  | "meta" => replies "Value" "Value" any fun v _ => .now (.value (.json (viewJson v)))
  | "echo_stream" => streams echo
  | "echo_typed" => streams echoProfiles
  | "fail_stream" => streams failOnFirst
  | "meta_stream" => streams showView
  | "meta_hold" => streams showViewAndHold
  | "silent" => streams silent
  | "count" => sends "CountReq" countRequest count
  | "stream_fail" => sends "FailReq" (unchecked failure failureInitial) sendThenFail
  | _ => none

-- The types that go by a name, each with its initial datum; any other name is that of whatever
-- JSON can say.
def typeNamed : String → Shape × Datum
  | "profile" => (profile, profileInitial)
  | "settings" => (settings, settingsInitial)
  | "unit" => (.unit, .unit)
  | "i64" => (.i64, .int 0)
  | "string" => (.text, .text "")
  | "ints" => (.list .i64, .list [])
  | "bytes" => (.list .u8, .list [])
  | "map" => (.map .i64, .map [])
  | _ => (.any, .json .null)

def service (name : String) (methods : List (String × String)) : Definition :=
  ⟨name, methods.filterMap fun (name, behaviour) => method? name behaviour⟩

end CallFabric.Demo
