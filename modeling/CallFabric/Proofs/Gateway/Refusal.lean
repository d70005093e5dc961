import CallFabric.Gateway.Serve

namespace CallFabric.Gateway

variable {g g' : Gateway} {o : Occasion} {r : Request} {e : Exchange} {f : Fault}

-- Whether nothing was done for a request but to answer it at once and to count it: no connection
-- was claimed and no session begun, since the gateway with its client is what it was, and no
-- handler was called.
structure Exchange.Idle (e : Exchange) (g : Gateway) (o : Occasion) : Prop where
  gateway  : e.gateway = g
  handled  : e.handled = none
  reports  : e.reports = []
  measured : ∀ m ∈ e.measurements, ∃ kind status, m = .gatewayRequest kind status
  time     : e.time = o.now

-- Whether a request asks for a call or a session and is refused.
def refuses (g : Gateway) (p : Parts) : Bool :=
  match Route.of g.config.mount p, g.admission p with
  | .call _, .refused _ => true
  | .session _, .refused _ => true
  | _, _ => false

theorem guarded_of_refused {p : Parts} (hf : g.admission p = .refused f) (o : Occasion)
    (kind : String) (answer : Option Exchange) :
    g.guarded o p kind answer = some (g.rejected o kind f) := by
  rw [guarded, hf]

theorem idle_rejected (g : Gateway) (o : Occasion) (kind : String) (f : Fault) :
    (g.rejected o kind f).Idle g o :=
  ⟨rfl, rfl, rfl, fun _ hm => ⟨kind, _, List.mem_singleton.mp hm⟩, rfl⟩

theorem answer_of_refused (hr : ∃ rest, Route.of g.config.mount r.parts = .call rest ∨
      Route.of g.config.mount r.parts = .session rest)
    (hf : g.admission r.parts = .refused f) (o : Occasion) :
    ∃ kind, g.answer o r = some (g.rejected o kind f) := by
  obtain ⟨rest, hr | hr⟩ := hr <;> rw [answer, hr]
  case inl => exact ⟨"http", guarded_of_refused hf ..⟩
  case inr => exact ⟨"ws", guarded_of_refused hf ..⟩

theorem refuses_iff {p : Parts} :
    g.refuses p ↔
      (∃ rest, Route.of g.config.mount p = .call rest ∨ Route.of g.config.mount p = .session rest) ∧
        ∃ f, g.admission p = .refused f := by
  rw [refuses]
  cases Route.of g.config.mount p <;> cases g.admission p <;> simp

theorem idle_of_refuses (h : g.refuses r.parts) (o : Occasion) :
    ∃ e, g.serve o r = some e ∧ e.Idle g o := by
  obtain ⟨hr, f, hf⟩ := refuses_iff.mp h
  obtain ⟨kind, ha⟩ := answer_of_refused hr hf o
  have hi := idle_rejected g o kind f
  simp only [serve, ha, Option.map_some]
  split
  case isTrue  => exact ⟨_, rfl, hi.gateway, hi.handled, hi.reports, hi.measured, hi.time⟩
  case isFalse => exact ⟨_, rfl, hi⟩

-- What a gateway goes by: what it serves from and whom it has met do not belong to it.
structure Alike (g g' : Gateway) : Prop where
  config    : g'.config = g.config
  admission : g'.admission = g.admission

theorem Alike.refuses (h : g.Alike g') (p : Parts) : g'.refuses p = g.refuses p := by
  rw [Gateway.refuses, Gateway.refuses, h.config, h.admission]

theorem alike_guarded {p : Parts} {kind : String} {answer : Option Exchange}
    (ha : ∀ e, answer = some e → g.Alike e.gateway) (h : g.guarded o p kind answer = some e) :
    g.Alike e.gateway := by
  rw [guarded] at h
  cases hv : g.admission p <;> rw [hv] at h
  case admitted => exact ha e h
  all_goals
    cases h
    exact ⟨rfl, rfl⟩

theorem alike_answerCall {rest : String} (h : g.answerCall o r rest = some e) :
    g.Alike e.gateway := by
  rw [answerCall] at h
  split at h
  case h_1 =>
    cases h
    exact ⟨rfl, rfl⟩
  case h_2 =>
    obtain ⟨handling, -, rfl⟩ := Option.map_eq_some_iff.mp h
    exact ⟨rfl, rfl⟩

theorem alike_answerSession (g : Gateway) (o : Occasion) (p : Parts) (rest : String) :
    g.Alike (g.answerSession o p rest).gateway := by
  rw [answerSession]
  split
  case h_1 => exact ⟨rfl, rfl⟩
  case h_2 =>
    split
    case h_1 => exact ⟨rfl, rfl⟩
    case h_2 => split <;> exact ⟨rfl, rfl⟩

theorem alike_answer (h : g.answer o r = some e) : g.Alike e.gateway := by
  rw [answer] at h
  split at h
  case h_1 => exact alike_guarded (fun _ => alike_answerCall) h
  case h_2 rest _ =>
    refine alike_guarded (fun e he => ?_) h
    cases he
    exact alike_answerSession g o r.parts rest
  all_goals
    cases h
    exact ⟨rfl, rfl⟩

theorem alike_serve (h : g.serve o r = some e) : g.Alike e.gateway := by
  obtain ⟨e', he, rfl⟩ := Option.map_eq_some_iff.mp h
  have ha := alike_answer he
  split <;> exact ⟨ha.config, ha.admission⟩

-- What is left of a gateway once it served a request. A handler that never answers leaves it as it
-- is.
def after (g : Gateway) (o : Occasion) (r : Request) : Gateway :=
  ((g.serve o r).map (·.gateway)).getD g

theorem alike_after (g : Gateway) (o : Occasion) (r : Request) : g.Alike (g.after o r) := by
  rw [after]
  cases h : g.serve o r
  case none   => exact ⟨rfl, rfl⟩
  case some e => exact alike_serve h

def serveAll (g : Gateway) : List (Occasion × Request) →
    List (Request × Option Exchange) × Gateway
  | [] => ([], g)
  | (o, r) :: later =>
    let (served, g') := (g.after o r).serveAll later
    ((r, g.serve o r) :: served, g')

-- Requests that are refused leave no trace in what all others come to.
theorem serveAll_admitted (g : Gateway) (requests : List (Occasion × Request)) :
    let admitted := requests.filter fun (_, r) => !g.refuses r.parts
    (g.serveAll requests).2 = (g.serveAll admitted).2 ∧
      ((g.serveAll requests).1.filter fun (r, _) => !g.refuses r.parts) =
        (g.serveAll admitted).1 := by
  induction requests generalizing g
  case nil => exact ⟨rfl, rfl⟩
  case cons request later hi =>
    obtain ⟨o, r⟩ := request
    obtain ⟨hg, hs⟩ := hi (g.after o r)
    simp only [(alike_after g o r).refuses] at hg hs
    cases hr : g.refuses r.parts
    case false =>
      simp only [serveAll, List.filter_cons, hr, Bool.not_false, if_true]
      exact ⟨hg, congrArg _ hs⟩
    case true =>
      obtain ⟨e, he, hid⟩ := idle_of_refuses hr o
      have ha : g.after o r = g := by rw [after, he, Option.map_some, hid.gateway]; rfl
      simp only [serveAll, List.filter_cons, hr, Bool.not_true]
      rw [ha] at hg hs ⊢
      exact ⟨hg, hs⟩

theorem Route.of_text {mount rest text : String} {p : Parts}
    (hm : p.method = "POST" ∨ p.method = "GET") (hp : restOf? mount p.uri.path = some rest)
    (hd : unescape? rest = some text) :
    Route.of mount p = .call text ∨ Route.of mount p = .session text := by
  rcases hm with hm | hm <;> simp [Route.of, hp, hd, hm]

-- Who is refused gets the fault that the check gave and nothing else happens. The check decides:
-- what the gateway serves from, what its client knows and what the body holds do not show in the
-- answer. In any run of requests those that are refused change neither what the others come to nor
-- what is left of the gateway.
theorem refused_unserved {rest text : String}
    (hm : r.parts.method = "POST" ∨ r.parts.method = "GET")
    (hp : Route.restOf? g.config.mount r.parts.uri.path = some rest)
    (hd : Route.unescape? rest = some text) (hf : g.admission r.parts = .refused f) :
    (∀ o, ∃ e, g.serve o r = some e ∧ e.response = .reply (.ofFault f) ∧ e.Idle g o) ∧
    (∀ (g' : Gateway) (o o' : Occasion) (body : Bytes), g'.config.mount = g.config.mount →
      g'.admission r.parts = g.admission r.parts →
        (g'.serve o' ⟨r.parts, body⟩).map (·.response) = (g.serve o r).map (·.response)) ∧
    g.refuses r.parts ∧ ∀ requests : List (Occasion × Request),
      let admitted := requests.filter fun (_, r) => !g.refuses r.parts
      (g.serveAll requests).2 = (g.serveAll admitted).2 ∧
        ((g.serveAll requests).1.filter fun (r, _) => !g.refuses r.parts) =
          (g.serveAll admitted).1 := by
  have hr := Route.of_text hm hp hd
  have hs {g' : Gateway} (hg : g'.config.mount = g.config.mount)
      (ha : g'.admission r.parts = g.admission r.parts) (o : Occasion) (body : Bytes) :
      ∃ kind, g'.serve o ⟨r.parts, body⟩ = some (g'.rejected o kind f) := by
    have hne : r.parts.method ≠ "HEAD" := by rcases hm with hm | hm <;> simp [hm]
    obtain ⟨kind, hs⟩ := answer_of_refused (r := ⟨r.parts, body⟩) ⟨text, hg.symm ▸ hr⟩
      (ha.trans hf) o
    exact ⟨kind, by simp [serve, hs, hne]⟩
  refine ⟨fun o => ?once, fun g' o o' body hg ha => ?alone, ?refused, serveAll_admitted g⟩
  case once =>
    obtain ⟨kind, he⟩ := hs rfl rfl o r.body
    exact ⟨_, he, rfl, idle_rejected g o kind f⟩
  case alone =>
    obtain ⟨kind, he⟩ := hs rfl rfl o r.body
    obtain ⟨kind', he'⟩ := hs hg ha o' body
    rw [he, he']
    rfl
  case refused => exact refuses_iff.mpr ⟨⟨text, hr⟩, f, hf⟩

-- A token that is not known, for a method that there is and for one that there is not.
theorem refused_without_token :
    let g := Gateway.ofConfig { auth := some { tokens := ["good"] } } (.native
      ⟨[("Auth.Refresh", ⟨"Auth.Refresh", [], "unit", "unit", .duplex fun _ _ _ => .succeed⟩)],
        .standard⟩)
    let g' := Gateway.ofConfig { auth := some { tokens := ["good"] } }
      (.remote (.ofConfig {} .standard) ⟨[], .octets [127, 0, 0, 1] 9⟩)
    let r : Request := ⟨⟨"GET", ⟨none, none, "/rpc/sso/Auth.Refresh", none⟩,
      [("authtoken", Bytes.ofText "bad")], true⟩, []⟩
    let o : Occasion := ⟨0, "r", 0⟩
    let refused := some (Response.reply (.ofFault (.forbidden "invalid token")))
    r.parts.method = "GET" ∧
      Route.restOf? g.config.mount r.parts.uri.path = some "sso/Auth.Refresh" ∧
      Route.unescape? "sso/Auth.Refresh" = some "sso/Auth.Refresh" ∧
      g.admission r.parts = .refused (.forbidden "invalid token") ∧
      (g.serve o r).map (·.response) = refused ∧
      (g'.serve o ⟨r.parts, [0x7b]⟩).map (·.response) = refused := by
  intro g g' r o refused
  have hp : Route.restOf? g.config.mount r.parts.uri.path = some "sso/Auth.Refresh" := by
    decide +kernel
  have hd : Route.unescape? "sso/Auth.Refresh" = some "sso/Auth.Refresh" := by decide +kernel
  have hf : g.admission r.parts = .refused (.forbidden "invalid token") := by decide +kernel
  obtain ⟨ho, hg, -⟩ := refused_unserved (.inr rfl) hp hd hf
  obtain ⟨e, he, hr, -⟩ := ho o
  have hs : (g.serve o r).map (·.response) = refused := by rw [he, Option.map_some, hr]
  exact ⟨rfl, hp, hd, hf, hs, (hg g' o o [0x7b] rfl rfl).trans hs⟩

end CallFabric.Gateway
