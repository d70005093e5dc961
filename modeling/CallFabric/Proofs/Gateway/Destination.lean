import CallFabric.Gateway.Serve

namespace CallFabric

namespace Rpc.Network

variable {n n' : Network} {address : String}

-- Whether two networks are the same to whoever calls one address.
structure AgreesAt (n n' : Network) (address : String) : Prop where
  caller : n'.caller = n.caller
  server : n'.servers.get? address = n.servers.get? address

theorem AgreesAt.refusal? (h : n.AgreesAt n' address) :
    n'.refusal? address = n.refusal? address := by
  rw [Network.refusal?, Network.refusal?, h.server]

theorem AgreesAt.arrival (h : n.AgreesAt n' address) : n'.arrival = n.arrival := by
  funext path metadata messages
  rw [Network.arrival, Network.arrival, h.caller]

end Rpc.Network

namespace Client

open Rpc (Network)

section Resolution

variable {c : Client} {name address : String}

theorem resolve_of_get? (h : c.services.get? name = some address) : c.resolve name = address := by
  rw [resolve, Address.resolve, h, Option.getD_some]

theorem resolve_eq_self_iff :
    c.resolve name = name ↔ ∀ x, c.services.get? name = some x → x = name := by
  rw [resolve, Address.resolve]
  cases c.services.get? name <;> simp

end Resolution

variable {n n' : Network} {address : String} (h : n.AgreesAt n' address) (c : Client)
include h

theorem acquire_congr (now : Time) : c.acquire n' now address = c.acquire n now address := by
  rw [acquire, acquire, h.refusal?]

theorem exchange_congr (patience : Nat) (now : Time) (o : Outgoing) (stop : Time × Ending)
    (payload : Bytes) :
    c.exchange n' patience now address o stop payload =
      c.exchange n patience now address o stop payload := by
  rw [exchange, exchange, h.server, h.arrival]

theorem invokeRaw_congr (patience : Nat) (freshId : String) (ctx : Context) (now : Time)
    (cancelAt : Option Time) (service endpoint : String) (payload : Bytes) :
    c.invokeRaw n' patience freshId ctx now cancelAt address service endpoint payload =
      c.invokeRaw n patience freshId ctx now cancelAt address service endpoint payload := by
  simp only [invokeRaw, acquire_congr h, exchange_congr h]

theorem openStream_congr (freshId : String) (ctx : Context) (now : Time) (cancelled : Bool)
    (service endpoint : String) :
    c.openStream n' freshId ctx now cancelled address service endpoint =
      c.openStream n freshId ctx now cancelled address service endpoint := by
  simp only [openStream, acquire_congr h, h.server, h.arrival]

end Client

namespace Gateway

variable {g : Gateway} {c : Client} {n : Rpc.Network} {service address rest endpoint : String}

-- The call that a request asks for, made at an address.
def callAt (c : Client) (n : Rpc.Network) (o : Occasion) (a : Asked) (address : String) :
    Handling :=
  let called := c.invokeRaw n o.patience o.freshId (contextOf a.metadata) o.now none address
    a.target.service a.target.endpoint a.payload
  ⟨called.result.bind (readable c a), .remote called.client n, [], called.reports, called.time,
    called.handled⟩

-- Where its stream is opened is all that a session shows of its destination.
structure GoesTo (g : Gateway) (c : Client) (n : Rpc.Network) (service address : String) :
    Prop where
  call (o : Occasion) (a : Asked) :
    a.target.service = service → g.handle o a = some (callAt c n o a address)
  session (o : Occasion) (p : Parts) (rest endpoint : String) (t : SessionTarget) :
    Address.parseTarget rest = .ok ⟨service, endpoint⟩ →
      (g.answerSession o p rest).response = .upgrade t → t.address = address

def Backend.through (n : Rpc.Network) : Backend → Backend
  | .native d => .native d
  | .remote c _ => .remote c n

-- The server at its address is all of the network that a call has to do with.
theorem callAt_congr {n' : Rpc.Network} (h : n.AgreesAt n' address) (o : Occasion) (a : Asked) :
    callAt c n' o a address =
      let called := callAt c n o a address
      { called with backend := called.backend.through n' } := by
  simp only [callAt, Client.invokeRaw_congr h, Backend.through]

-- And so it is for the stream of a session.
theorem openSession_congr {n' : Rpc.Network} {t : SessionTarget} (h : n.AgreesAt n' t.address)
    (hb : g.backend = .remote c n) (o : Occasion) (closing : Bool) :
    ({ g with backend := .remote c n' }.openSession o closing t).result =
      (g.openSession o closing t).result := by
  simp only [openSession, hb, Client.openStream_congr h]
  rfl

theorem response_answerSession (hb : g.backend = .remote c n)
    (hr : Address.parseTarget rest = .ok ⟨service, endpoint⟩) (o : Occasion) (p : Parts) :
    (g.answerSession o p rest).response =
      match p.upgradeError? with
      | some e => .reply (.ofFault e.fault)
      | none => .upgrade ⟨service, endpoint, remoteAddress g.config c service,
          callMetadata p.headers ContentType.json o.freshId⟩ := by
  simp only [answerSession, hr, hb]
  cases p.upgradeError? <;> rfl

theorem goesTo_remoteAddress (hb : g.backend = .remote c n) (service : String) :
    g.GoesTo c n service (remoteAddress g.config c service) where
  call o a hs := by
    subst hs
    rw [handle, hb]
    rfl
  session o p rest endpoint t hr ht := by
    rw [response_answerSession hb hr o p] at ht
    split at ht
    case h_1 => cases ht
    case h_2 =>
      cases ht
      rfl

def socketRequest : Parts :=
  ⟨"GET", ⟨none, none, "/", none⟩,
    [("connection", Bytes.ofText "upgrade"), ("upgrade", Bytes.ofText "websocket"),
      ("sec-websocket-key", []), ("sec-websocket-version", Bytes.ofText "13")], true⟩

theorem upgradeError?_socketRequest : socketRequest.upgradeError? = none := by
  decide

-- A service that a path names has one destination: the one that its sessions show.
theorem GoesTo.eq_remoteAddress (h : g.GoesTo c n service address) (hb : g.backend = .remote c n)
    (hr : Address.parseTarget rest = .ok ⟨service, endpoint⟩) :
    address = remoteAddress g.config c service := by
  have ho := response_answerSession hb hr ⟨0, "", 0⟩ socketRequest
  rw [upgradeError?_socketRequest] at ho
  exact (h.session _ _ _ _ _ hr ho).symm

-- The calls and sessions of a service go to its address, where a call of the client's own would go,
-- and without an address to the service's name at the port of the gateway; but only where that is
-- not itself a name with another address. Such a name is looked up in its turn.
theorem goesTo_named_iff (hb : g.backend = .remote c n)
    (hr : Address.parseTarget rest = .ok ⟨service, endpoint⟩) :
    let named := Address.destination c.services service g.config.grpcPort
    (g.GoesTo c n service named ↔ ∀ x, c.services.get? named = some x → x = named) ∧
    g.GoesTo c n service (c.resolve named) ∧
    (∀ x, c.services.get? service = some x → named = x ∧ c.resolve service = x) ∧
    (c.services.get? service = none → named = service ++ ":" ++ toString g.config.grpcPort) := by
  intro named
  refine ⟨?iff, goesTo_remoteAddress hb service, ?mapped, ?unmapped⟩
  case iff =>
    rw [← Client.resolve_eq_self_iff]
    constructor
    case mp  => exact fun h => (h.eq_remoteAddress hb hr).symm
    case mpr =>
      intro h
      have hg := goesTo_remoteAddress hb service
      rwa [remoteAddress, h] at hg
  case mapped =>
    intro x hx
    have hd : named = x := by simp only [named, Address.destination, hx, Option.getD_some]
    exact ⟨hd, Client.resolve_of_get? hx⟩
  case unmapped =>
    intro hx
    simp only [named, Address.destination, hx, Option.getD_none]

-- An address that is its own, and a service that has none.
theorem goesTo_named_of_fixed :
    let c := Client.ofConfig { services := [("auth:10000", "auth:10000"), ("sso", "auth:10000")] }
      .empty
    let n : Rpc.Network := ⟨[], .octets [127, 0, 0, 1] 9⟩
    let g := Gateway.ofConfig {} (.remote c n)
    Address.parseTarget "sso/Auth.Refresh" = .ok ⟨"sso", "Auth.Refresh"⟩ ∧
      Address.parseTarget "/eu/Auth.Refresh/more" = .ok ⟨"eu", "Auth.Refresh"⟩ ∧
      g.GoesTo c n "sso" "auth:10000" ∧ g.GoesTo c n "eu" "eu:10000" := by
  intro c n g
  have hs : Address.parseTarget "sso/Auth.Refresh" = .ok ⟨"sso", "Auth.Refresh"⟩ := rfl
  have he : Address.parseTarget "/eu/Auth.Refresh/more" = .ok ⟨"eu", "Auth.Refresh"⟩ := rfl
  have hx (x : String) (h : c.services.get? "auth:10000" = some x) : x = "auth:10000" :=
    (Option.some.inj h).symm
  have hn (x : String) (h : c.services.get? "eu:10000" = some x) : x = "eu:10000" := nomatch h
  have hd : Address.destination c.services "eu" g.config.grpcPort = "eu:10000" := by
    decide +kernel
  obtain ⟨hg, -⟩ := goesTo_named_iff (g := g) rfl he
  rw [hd] at hg
  exact ⟨hs, he, (goesTo_named_iff (g := g) rfl hs).1.mpr hx, hg.mpr hn⟩

-- The address of the service is a name, too, and the call is sent to the address of that name.
theorem call_misdirected :
    let c := Client.ofConfig { services := [("auth:10000", "127.0.0.1:1"), ("sso", "auth:10000")] }
      (Codec.Registry.empty.register "application/json" .json)
    let g := Gateway.ofConfig {} (.remote c ⟨[], .octets [127, 0, 0, 1] 9⟩)
    let r : Request := ⟨⟨"POST", ⟨none, none, "/rpc/sso/Auth.Refresh", none⟩,
      [("content-type", Bytes.ofText "application/json")], false⟩, Bytes.ofText "\x7b\x7d"⟩
    c.services.get? "sso" = some "auth:10000" ∧ c.resolve "sso" = "auth:10000" ∧
      (g.serve ⟨0, "r", 0⟩ r).map (·.response) = some (.reply (.ofFault (.badRequest
        "[rpc-client] Error sending request: dial 127.0.0.1:1: transport error"))) := by
  decide +kernel

end Gateway
end CallFabric
