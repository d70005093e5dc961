import CallFabric.Gateway.Serve

namespace CallFabric.Gateway

namespace Response

-- A status that is none of HTTP's is answered as an internal error.
inductive Structured : Response → Prop
  | upgrade (t : SessionTarget) : Structured (.upgrade t)
  | success {r : Reply} : r.status = 200 → r.contentType = some Reply.jsonUtf8 →
      Structured (.reply r)
  | fault {r : Reply} (f : Fault) :
      (r.status = if 100 ≤ f.status.toNat ∧ f.status.toNat ≤ 999 then f.status.toNat else 500) →
      r.contentType = some Reply.jsonUtf8 → r.nosniff → r.body = f.text ++ [0x0a] →
      Structured (.reply r)

namespace Structured

theorem ofJson (body : Bytes) : Structured (.reply (.ofJson body)) := .success rfl rfl

theorem ofFault (f : Fault) : Structured (.reply (.ofFault f)) := by
  refine .fault f ?_ rfl rfl rfl
  have hl : 100 ≤ f.status ↔ 100 ≤ f.status.toNat := UInt16.le_iff_toNat_le
  have hu : f.status < 1000 ↔ f.status.toNat ≤ 999 := UInt16.lt_iff_toNat_lt.trans Nat.lt_succ_iff
  simp only [Reply.ofFault, Reply.httpStatus, hl, hu]

theorem ofExcept : (result : Except Fault Bytes) → Structured (.reply (.ofExcept result))
  | .ok body => ofJson body
  | .error f => ofFault f

theorem not_unreadablePath : ¬Structured (.reply unreadablePath) := by
  intro h
  cases h
  case success hs _   => cases hs
  case fault ht _ _ => exact absurd ht (by decide)

end Structured
end Response

namespace Route

theorem getD_eq_unreadable_iff {route : String → Route} (h : ∀ rest, route rest ≠ .unreadable)
    (text : Option String) : (text.map route).getD .unreadable = .unreadable ↔ text = none := by
  cases text
  case none      => simp
  case some text => simp [h]

theorem of_eq_unreadable_iff {mount : String} {p : Parts} :
    Route.of mount p = .unreadable ↔
      (p.method = "POST" ∨ p.method = "GET" ∨ p.method = "HEAD") ∧
        ∃ rest, restOf? mount p.uri.path = some rest ∧ unescape? rest = none := by
  rw [Route.of]
  cases restOf? mount p.uri.path
  case none      => simp
  case some rest =>
    dsimp only
    split
    case isTrue hp => simp [hp, getD_eq_unreadable_iff]
    case isFalse hp =>
      split
      case isTrue hg  => simp [hg, getD_eq_unreadable_iff]
      case isFalse hg =>
        split <;> simp [hp, hg]

end Route

variable {g : Gateway} {o : Occasion} {e : Exchange}

theorem structured_rejected (g : Gateway) (o : Occasion) (kind : String) (f : Fault) :
    (g.rejected o kind f).response.Structured :=
  .ofFault f

theorem structured_guarded {p : Parts} {kind : String} {answer : Option Exchange}
    (ha : ∀ e, answer = some e → e.response.Structured)
    (h : g.guarded o p kind answer = some e) : e.response.Structured := by
  rw [guarded] at h
  cases hv : g.admission p <;> rw [hv] at h
  case admitted => exact ha e h
  case refused f =>
    cases h
    exact structured_rejected g o kind f
  case panicked p =>
    cases h
    exact .ofFault (panicFault p)

theorem structured_answerCall {r : Request} {rest : String}
    (h : g.answerCall o r rest = some e) : e.response.Structured := by
  rw [answerCall] at h
  split at h
  case h_1 f _ =>
    cases h
    exact structured_rejected g o "http" f
  case h_2 =>
    obtain ⟨handling, -, rfl⟩ := Option.map_eq_some_iff.mp h
    exact .ofExcept handling.result

theorem structured_answerSession (g : Gateway) (o : Occasion) (p : Parts) (rest : String) :
    (g.answerSession o p rest).response.Structured := by
  rw [answerSession]
  split
  case h_1 e _ => exact structured_rejected g o "ws" e.fault
  case h_2 =>
    split
    case h_1 => exact structured_rejected g o "ws" noRemote
    case h_2 =>
      split
      case h_1 e _ => exact structured_rejected g o "ws" e.fault
      case h_2     => exact .upgrade _

theorem structured_answer {r : Request} (h : g.answer o r = some e)
    (hr : Route.of g.config.mount r.parts ≠ .unreadable) : e.response.Structured := by
  rw [answer] at h
  cases hc : Route.of g.config.mount r.parts <;> rw [hc] at h
  case call rest => exact structured_guarded (fun _ => structured_answerCall) h
  case session rest =>
    refine structured_guarded (fun e he => ?_) h
    cases he
    exact structured_answerSession g o r.parts rest
  case unreadable => exact absurd hc hr
  case options =>
    cases h
    exact .ofJson []
  case otherMethod =>
    cases h
    exact .ofFault (otherMethodFault r.parts)
  case elsewhere =>
    cases h
    exact .ofFault (elsewhereFault r.parts)

theorem response_answer_unreadable {r : Request} (h : g.answer o r = some e)
    (hr : Route.of g.config.mount r.parts = .unreadable) : e.response = .reply unreadablePath := by
  rw [answer, hr] at h
  cases h
  rfl

-- A gateway to remote servers answers whatever it is asked. One with handlers of its own waits for
-- them as long as they take.
theorem isSome_serve {c : Client} {n : Rpc.Network} (hb : g.backend = .remote c n) (o : Occasion)
    (r : Request) : (g.serve o r).isSome := by
  have hc (rest : String) : (g.answerCall o r rest).isSome := by
    simp only [answerCall, handle, hb, Option.map_some]
    split <;> rfl
  have hg {kind : String} {answer : Option Exchange} (ha : answer.isSome) :
      (g.guarded o r.parts kind answer).isSome := by
    rw [guarded]
    cases g.admission r.parts
    case admitted   => exact ha
    case refused f  => rfl
    case panicked p => rfl
  rw [serve, Option.isSome_map, answer]
  cases Route.of g.config.mount r.parts
  case call rest    => exact hg (hc rest)
  case session rest => exact hg rfl
  all_goals rfl

theorem serve_of_body {r : Request} (hm : r.parts.method ≠ "HEAD") (g : Gateway) (o : Occasion) :
    g.serve o r = g.answer o r := by
  simp [serve, hm]

-- Whatever is asked for, by whomever and of whichever backend, the answer has one of the three
-- forms, unless the rest of a path that would name a service is no text once its escapes are
-- undone. What refuses such a path knows nothing of faults.
theorem structured_iff {r : Request} (hm : r.parts.method ≠ "HEAD") (h : g.serve o r = some e) :
    (e.response.Structured ↔
      ¬((r.parts.method = "POST" ∨ r.parts.method = "GET") ∧
        ∃ rest, Route.restOf? g.config.mount r.parts.uri.path = some rest ∧
          Route.unescape? rest = none)) ∧
    (¬e.response.Structured → e.response = .reply unreadablePath) := by
  rw [serve_of_body hm] at h
  have hr : Route.of g.config.mount r.parts = .unreadable ↔
      (r.parts.method = "POST" ∨ r.parts.method = "GET") ∧
        ∃ rest, Route.restOf? g.config.mount r.parts.uri.path = some rest ∧
          Route.unescape? rest = none := by
    rw [Route.of_eq_unreadable_iff]
    simp only [hm, or_false]
  rw [← hr]
  by_cases hu : Route.of g.config.mount r.parts = .unreadable
  case pos =>
    have he := response_answer_unreadable h hu
    rw [he]
    exact ⟨iff_of_false Response.Structured.not_unreadablePath (not_not_intro hu), fun _ => rfl⟩
  case neg =>
    have hs := structured_answer h hu
    exact ⟨iff_of_true hs hu, fun hn => absurd hs hn⟩

-- An escape that is undone; there is no codec for the call.
theorem structured_despite_escape :
    let g := Gateway.ofConfig {} (.native ⟨[], .empty⟩)
    let r : Request := ⟨⟨"POST", ⟨none, none, "/rpc/s/%41", none⟩,
      [("content-type", Bytes.ofText "application/json")], false⟩, []⟩
    r.parts.method ≠ "HEAD" ∧ ∃ e, g.serve ⟨0, "r", 0⟩ r = some e ∧ e.response.Structured := by
  intro g r
  have hm : r.parts.method ≠ "HEAD" := by decide
  have hs : (g.serve ⟨0, "r", 0⟩ r).isSome := by decide +kernel
  obtain ⟨e, he⟩ := Option.isSome_iff_exists.mp hs
  have hr : Route.restOf? g.config.mount r.parts.uri.path = some "s/%41" := by decide +kernel
  refine ⟨hm, e, he, (structured_iff hm he).1.mpr ?_⟩
  rintro ⟨-, rest, hrest, hu⟩
  obtain rfl : "s/%41" = rest := Option.some.inj (hr.symm.trans hrest)
  exact absurd hu (by decide +kernel)

-- The octet ff stands in no UTF-8.
theorem unstructured_of_escape :
    let g := Gateway.ofConfig {} (.native ⟨[], .empty⟩)
    let r : Request := ⟨⟨"POST", ⟨none, none, "/rpc/%FF", none⟩,
      [("content-type", Bytes.ofText "application/json")], false⟩, Bytes.ofText "\x7b\x7d"⟩
    ∃ e, g.serve ⟨0, "r", 0⟩ r = some e ∧ e.response = .reply ⟨400,
        some "text/plain; charset=utf-8", false,
        Bytes.ofText "Invalid URL: Invalid UTF-8 in \x60rest\x60"⟩ ∧
      ¬e.response.Structured := by
  intro g r
  have hs : (g.serve ⟨0, "r", 0⟩ r).map (·.response) = some (.reply unreadablePath) := by
    decide +kernel
  obtain ⟨e, he, hr⟩ := Option.map_eq_some_iff.mp hs
  exact ⟨e, he, hr, hr ▸ Response.Structured.not_unreadablePath⟩

end CallFabric.Gateway
