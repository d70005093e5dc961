import CallFabric.Gateway.Supervision
import CallFabric.Proofs.Gateway.Turns

namespace CallFabric.Gateway

open Client (Contention)
open Client.Duplex (Deed)

-- Of what was taken, the latest is in one hand, then comes a queue, then another hand, and what was
-- passed on is the oldest.
structure Between {α : Type} (taken back queue front passed : List α) : Prop where
  conserved : taken = passed ++ front ++ queue ++ back
  oneBehind : back.length ≤ 1
  bounded   : queue.length ≤ Session.queueCapacity
  oneAhead  : front.length ≤ 1

namespace Between

variable {α : Type} {taken back queue front passed : List α} {a : α}

theorem take (h : Between taken [] queue front passed) (a : α) :
    Between (taken ++ [a]) [a] queue front passed where
  conserved := by simp [h.conserved]
  oneBehind := Nat.le_refl 1
  bounded   := h.bounded
  oneAhead  := h.oneAhead

theorem enqueue (h : Between taken [a] queue front passed)
    (hr : queue.length < Session.queueCapacity) : Between taken [] (queue ++ [a]) front passed where
  conserved := by simp [h.conserved]
  oneBehind := Nat.zero_le 1
  bounded   := by simpa [Nat.succ_le_iff] using hr
  oneAhead  := h.oneAhead

theorem dequeue (h : Between taken back (a :: queue) [] passed) :
    Between taken back queue [a] passed where
  conserved := by simp [h.conserved]
  oneBehind := h.oneBehind
  bounded   := Nat.le_of_succ_le h.bounded
  oneAhead  := Nat.le_refl 1

theorem pass (h : Between taken back queue front passed) :
    Between taken back queue [] (passed ++ front) where
  conserved := by simp [h.conserved]
  oneBehind := h.oneBehind
  bounded   := h.bounded
  oneAhead  := Nat.zero_le 1

theorem isPrefix (h : Between taken back queue front passed) : passed ++ front <+: taken :=
  ⟨queue ++ back, by simp [h.conserved]⟩

theorem length_le (h : Between taken back queue front passed) :
    taken.length ≤ passed.length + (Session.queueCapacity + 2) := by
  have := h.oneBehind
  have := h.bounded
  have := h.oneAhead
  simp only [h.conserved, List.length_append]
  omega

end Between

def SocketMessage.text? : SocketMessage → Option String
  | .text t        => some t
  | .ping | .close => none

def texts (messages : List SocketMessage) : List String := messages.filterMap SocketMessage.text?

def payloads (frames : List Frame) : List Bytes := frames.filterMap Frame.payload?

-- The frames before the first that is binary.
def beforeBinary (frames : List Frame) : List Frame := frames.takeWhile (!·.isBinary)

def Hand.held : Hand → List Bytes
  | .holding payload => [payload]
  | .empty | .exited => []

-- What the pump that writes to the socket has taken and not yet written. When it has begun to close
-- that can be a message whose writing failed.
def Writer.Holds (front : List String) : Writer → Prop
  | .idle              => front = []
  | .writing message   => front = texts [message]
  | .closing | .exited => True

namespace Session

def Turn.session : Turn → Session
  | .on s    => s
  | .out s _ => s

def Turn.GoesOn : Turn → Prop
  | .on _    => True
  | .out _ _ => False

-- Which pumps work before a turn and after it.
def Turn.Leaves (t : Turn) (p : Pump) (w w' : Pump → Prop) : Prop :=
  ∀ q, w' q ↔ w q ∧ (q = p → t.GoesOn)

section Leaves

variable {t : Turn} {p q : Pump} {w w' : Pump → Prop} {s : Session} {last : List Deed}

theorem Turn.Leaves.worked (h : t.Leaves p w w') (hq : w' q) : w q := ((h q).mp hq).1

theorem Turn.Leaves.works_iff (h : t.Leaves p w w') (hq : q ≠ p) : w' q ↔ w q :=
  ⟨h.worked, fun hw => (h q).mpr ⟨hw, fun hn => absurd hn hq⟩⟩

theorem Turn.Leaves.not_works (h : (Turn.out s last).Leaves p w w') : ¬ w' p :=
  fun hp => ((h p).mp hp).2 rfl

end Leaves

inductive Aside (s : Session) : Session → Prop
  | mk (call cancelled closes sourceEnded accepting broken now)
    (hi : call.inbox = s.call.inbox) (ho : call.outbox = s.call.outbox) :
    Aside s { s with call, cancelled, closes, sourceEnded, accepting, broken, now }

theorem Aside.refl (s : Session) : s.Aside s := .mk _ _ _ _ _ _ _ rfl rfl

end Session

namespace Supervision

-- The frame or the item of the call that an event brings.
def Event.frame? : Event → Option Frame
  | .deliver f => some f
  | _          => none

def Event.arrival? : Event → Option (Except Status Bytes)
  | .arrive item => some item
  | _            => none

-- What the socket comes by in an event.
def offered (s : Session) (event : Event) : List Frame :=
  (event.frame?.filter fun f => (s.deliver f).1 = .queued).toList

theorem deliver_eq (s : Session) (f : Frame) :
    (s.deliver f).2 = { s with source := s.source ++ offered s (.deliver f) } := by
  unfold offered Session.deliver
  split
  case isTrue  => simp [Event.frame?, Option.filter]
  case isFalse => split <;> simp [Event.frame?, Option.filter]

-- The pumps that work change a session, those that do not are left out of it one by one.
inductive Effect (w : Pump → Prop) (s : Session) : Event → (Pump → Prop) → Session → Prop
  | turn (p choice t w') (hp : w p) (ht : t ∈ s.turns p) (hw : t.Leaves p w w') :
    Effect w s (.turn p choice) w' t.session
  | panics (p w') (hw : ∀ q, w' q ↔ w q ∧ q ≠ p) : Effect w s (.panic p) w' (s.noteOfPanic p)
  | leaves (q p) (hp : ¬ w p) : Effect w s (.advance q) w (s.gone p)
  | delivers (f) :
    Effect w s (.deliver f) w { s with source := s.source ++ offered s (.deliver f) }
  | arrives (item) :
    Effect w s (.arrive item) w { s with call := s.call.arrive item }
  | peerTakes (payload rest) (ho : s.call.outbox = payload :: rest) :
    Effect w s .peerTake w { s with call := { s.call with outbox := rest } }
  | peerLeaves : Effect w s .leave w { s with call := s.call.leave }
  | aside (event s') (h : s.Aside s') (hf : event.frame? = none) (ha : event.arrival? = none) :
    Effect w s event w s'

def Working (v : Supervision) (p : Pump) : Prop := v.stage (.pump p) = .working

instance (v : Supervision) (p : Pump) : Decidable (v.Working p) :=
  inferInstanceAs (Decidable (_ = _))

variable {v v' : Supervision} {p : Pump} {q : Party} {stage : Stage}

theorem working_put_self (hs : stage ≠ .working) (r : Pump) :
    (v.put (.pump p) stage).Working r ↔ v.Working r ∧ r ≠ p := by
  rcases Decidable.em (r = p) with rfl | hr
  · simp [Working, hs]
  · simp [Working, put_stage_ne v stage (q := .pump p) (r := .pump r) (by simpa using hr), hr]

theorem working_congr (h : v'.stage = v.stage) : v'.Working = v.Working := by
  funext r
  simp only [Working, h]

theorem working_put_supervisor (v : Supervision) (stage : Stage) :
    (v.put .supervisor stage).Working = v.Working := by
  funext r
  simp [Working, put]

theorem working_put (hq : v.stage q ≠ .working) (hs : stage ≠ .working)
    (hv : v'.stage = v.stage := by rfl) : (v'.put q stage).Working = v.Working := by
  funext r
  rcases Decidable.em (.pump r = q) with rfl | hr
  · simp [Working, hs, hq]
  · simp [Working, put_stage_ne _ _ hr, hv]

theorem effect_turn (p : Pump) (choice : Nat) :
    Effect v.Working v.session (.turn p choice) (v.turn p choice).Working
      (v.turn p choice).session := by
  unfold turn
  split
  case isFalse => exact .aside _ _ (.refl _) rfl rfl
  case isTrue hp =>
    split
    case h_1 s hs =>
      exact .turn p choice _ _ hp (List.mem_of_getElem? hs) fun q => by
        simp [Working, Session.Turn.GoesOn]
    case h_2 s last hs =>
      refine .turn p choice _ _ hp (List.mem_of_getElem? hs) fun q => ?_
      exact (working_put_self (by simp) q).trans (by simp [Session.Turn.GoesOn, Working, begin])
    case h_3 => exact .aside _ _ (.refl _) rfl rfl

theorem aside_deed (v : Supervision) (n : Nat) : v.session.Aside (v.deed n).session := by
  refine .mk _ _ _ _ _ _ _ ?_ ?_
  all_goals
    simp only [calls, Contention.proceed]
    split
    case h_2   => rfl
    case h_1 t _ =>
      unfold Client.Duplex.Operation.proceed
      split
      case h_3 => split <;> rfl
      case h_6 => dsimp only; split <;> rfl
      all_goals rfl

theorem effect_retire (hq : v.stage q ≠ .working) :
    Effect v.Working v.session (.advance q) (v.retire q).Working (v.retire q).session := by
  cases q
  case supervisor =>
    have hw : (v.retire .supervisor).Working = v.Working := v.working_put_supervisor _
    exact hw ▸ .aside _ _ (.refl _) rfl rfl
  case pump p =>
    have hw : (v.retire (.pump p)).Working = v.Working := working_put hq (by simp)
    rw [hw]
    exact .leaves _ p hq

theorem effect_advance (q : Party) :
    Effect v.Working v.session (.advance q) (v.advance q).Working (v.advance q).session := by
  unfold advance
  split
  case h_1 | h_2 => exact .aside _ _ (.refl _) rfl rfl
  case h_3 n hq =>
    split
    case isTrue =>
      have hw : (v.put q .waiting).Working = v.Working := working_put (by simp [hq]) (by simp)
      exact hw ▸ .aside _ _ (.refl _) rfl rfl
    case isFalse => exact .aside _ _ (v.aside_deed n) rfl rfl
  case h_4 hq =>
    split
    case isTrue => exact .aside _ _ (.refl _) rfl rfl
    case isFalse =>
      split
      case isFalse => exact effect_retire (by simp [hq])
      case isTrue =>
        have hw : (v.enter q).Working = v.Working := working_put (by simp [hq]) (by simp)
        exact hw ▸ .aside _ _ (.mk _ _ _ _ _ _ _ rfl rfl) rfl rfl
  case h_5 hq =>
    have hw : (v.beginClose q).Working = v.Working := working_put (by simp [hq]) (by simp)
    exact hw ▸ .aside _ _ (.mk _ _ _ _ _ _ _ rfl rfl) rfl rfl
  case h_6 n hq =>
    split
    case isTrue  => exact effect_retire (by simp [hq])
    case isFalse => exact .aside _ _ (v.aside_deed n) rfl rfl

theorem effect (v : Supervision) (event : Event) :
    Effect v.Working v.session event (v.step event).Working (v.step event).session := by
  cases event
  case turn p choice => exact effect_turn p choice
  case advance q     => exact effect_advance q
  case arrive item   => exact .arrives item
  case leave         => exact .peerLeaves
  case deliver f =>
    rw [step, deliver_eq]
    exact .delivers f
  case panic p =>
    simp only [step, panic]
    split
    case isTrue  => exact .panics p _ (working_put_self (by simp))
    case isFalse => exact .aside _ _ (.refl _) rfl rfl
  case join p =>
    simp only [step, join]
    split
    case isTrue =>
      rw [working_put_supervisor]
      exact .aside _ _ (.refl _) rfl rfl
    case isFalse => exact .aside _ _ (.refl _) rfl rfl
  case peerTake =>
    simp only [step, Client.Duplex.peerTake?]
    split
    case h_1 payload call h =>
      split at h
      case h_1 payload rest ho =>
        obtain ⟨-, rfl⟩ := Prod.mk.injEq .. ▸ Option.some.inj h
        exact .peerTakes payload rest ho
      case h_2 => cases h
    case h_2 => exact .aside _ _ (.refl _) rfl rfl
  all_goals exact .aside _ _ (.mk _ _ _ _ _ _ _ rfl rfl) rfl rfl

variable {w w' : Pump → Prop} {s s' : Session} {t : Session.Turn} {event : Event}

def Forwarding (w : Pump → Prop) (s : Session) : Prop :=
  ∃ back front, Between s.read back s.toCall front s.handed ∧
    (w .socketReader → back = s.socketReader.held) ∧ (w .callWriter → front = s.callWriter.held)

namespace Forwarding

theorem mono (h : Forwarding w s) (hw : ∀ q, w' q → w q) : Forwarding w' s := by
  obtain ⟨back, front, hb, hr, hf⟩ := h
  exact ⟨back, front, hb, fun hq => hr (hw _ hq), fun hq => hf (hw _ hq)⟩

theorem socketReader (h : Forwarding w s) (hp : w .socketReader) (ht : s.SocketReaderTurn t)
    (hw : t.Leaves .socketReader w w') : Forwarding w' t.session := by
  have hm : Forwarding w' s := h.mono fun _ => hw.worked
  obtain ⟨back, front, hb, hr, hf⟩ := h
  obtain rfl := hr hp
  have hf : w' .callWriter → front = s.callWriter.held := fun hq => hf (hw.worked hq)
  cases ht
  case stops | skips | refuses => exact hm
  case reads text rest hh hs =>
    rw [hh] at hb
    exact ⟨_, front, hb.take (.ofText text), fun _ => rfl, hf⟩
  case passes payload hh hr =>
    rw [hh] at hb
    exact ⟨[], front, hb.enqueue hr, fun _ => rfl, hf⟩

theorem callWriter (h : Forwarding w s) (hp : w .callWriter) (ht : s.CallWriterTurn t)
    (hw : t.Leaves .callWriter w w') : Forwarding w' t.session := by
  have hm : Forwarding w' s := h.mono fun _ => hw.worked
  obtain ⟨back, front, hb, hr, hf⟩ := h
  obtain rfl := hf hp
  have hr : w' .socketReader → back = s.socketReader.held := fun hq => hr (hw.worked hq)
  cases ht
  case stops | fails => exact hm
  case takes payload rest hh hq =>
    rw [hh, hq] at hb
    exact ⟨back, _, hb.dequeue, hr, fun _ => rfl⟩
  case drops payload rest hh hq =>
    rw [hh, hq] at hb
    exact ⟨back, _, hb.dequeue, hr, fun hq => absurd hq hw.not_works⟩
  case hands payload hh =>
    rw [hh] at hb
    exact ⟨back, [], hb.pass, hr, fun _ => rfl⟩

theorem effect (h : Forwarding w s) (he : Effect w s event w' s') : Forwarding w' s' := by
  cases he
  case turn p choice t hp ht hw =>
    have hm : Forwarding w' s := h.mono fun _ => hw.worked
    cases p
    case socketReader => exact h.socketReader hp (Session.socketReaderTurn ht) hw
    case callWriter   => exact h.callWriter hp (Session.callWriterTurn ht) hw
    case callReader   => cases Session.callReaderTurn ht <;> exact hm
    case socketWriter => cases Session.socketWriterTurn ht <;> exact hm
  case panics p hw => exact h.mono fun q hq => ((hw q).mp hq).1
  case leaves q p hp =>
    obtain ⟨back, front, hb, hr, hf⟩ := h
    refine ⟨back, front, ?_⟩
    cases p
    case socketReader            => exact ⟨hb, fun hw => absurd hw hp, hf⟩
    case callWriter              => exact ⟨hb, hr, fun hw => absurd hw hp⟩
    case callReader | socketWriter => exact ⟨hb, hr, hf⟩
  case aside _ _ hs => cases hs; exact h
  case delivers | arrives | peerTakes | peerLeaves => exact h

end Forwarding

theorem texts_append (messages more : List SocketMessage) :
    texts (messages ++ more) = texts messages ++ texts more :=
  List.filterMap_append

def Returning (w : Pump → Prop) (s : Session) : Prop :=
  ∃ back front,
    Between (s.received.map Bytes.lossy) (back.map Bytes.lossy) (s.toSocket.map Bytes.lossy) front
      (texts s.written) ∧
    texts s.attempted = texts s.written ++ front ∧
    (w .callReader → back = s.callReader.held) ∧ (w .socketWriter → s.socketWriter.Holds front)

namespace Returning

theorem mono (h : Returning w s) (hw : ∀ q, w' q → w q) : Returning w' s := by
  obtain ⟨back, front, hb, ha, hr, hf⟩ := h
  exact ⟨back, front, hb, ha, fun hq => hr (hw _ hq), fun hq => hf (hw _ hq)⟩

theorem callReader (h : Returning w s) (hp : w .callReader) (ht : s.CallReaderTurn t)
    (hw : t.Leaves .callReader w w') : Returning w' t.session := by
  have hm : Returning w' s := h.mono fun _ => hw.worked
  obtain ⟨back, front, hb, ha, hr, hf⟩ := h
  obtain rfl := hr hp
  have hf : w' .socketWriter → s.socketWriter.Holds front := fun hq => hf (hw.worked hq)
  cases ht
  case stops | ends => exact hm
  case receives payload rest hh hi =>
    rw [hh] at hb
    refine ⟨[payload], front, ?_, ha, fun _ => rfl, hf⟩
    simpa [Session.Turn.session] using hb.take payload.lossy
  case passes payload hh hr =>
    rw [hh] at hb
    refine ⟨[], front, ?_, ha, fun _ => rfl, hf⟩
    simpa [Session.Turn.session] using hb.enqueue (by simpa using hr)

theorem socketWriter (h : Returning w s) (hp : w .socketWriter) (ht : s.SocketWriterTurn t)
    (hw : t.Leaves .socketWriter w w') : Returning w' t.session := by
  obtain ⟨back, front, hb, ha, hr, hf⟩ := h
  have hf := hf hp
  have hr : w' .callReader → back = s.callReader.held := fun hq => hr (hw.worked hq)
  have hadd {message : SocketMessage} :
      texts (s.attempted ++ [message]) = texts s.written ++ front ++ texts [message] := by
    rw [texts_append, ha]
  cases ht
  case parts hi =>
    exact ⟨back, front, hb, hadd.trans (List.append_nil _), hr, fun _ => trivial⟩
  case pings next hi =>
    obtain rfl : front = [] := by rwa [hi] at hf
    exact ⟨back, [], hb, hadd.trans (List.append_nil _), hr, fun _ => rfl⟩
  case takes payload rest hi hq =>
    obtain rfl : front = [] := by rwa [hi] at hf
    rw [hq] at hb
    rw [List.append_nil] at hadd
    exact ⟨back, [payload.lossy], hb.dequeue, hadd, hr, fun _ => rfl⟩
  case writes message hi _ =>
    obtain rfl : front = texts [message] := by rwa [hi] at hf
    have hwritten := texts_append s.written [message]
    refine ⟨back, [], ?_, ?_, hr, fun _ => rfl⟩
    case _ => exact hwritten ▸ hb.pass
    case _ => exact ha.trans (by simp [Session.Turn.session, hwritten])
  case breaks message hi _ =>
    exact ⟨back, front, hb, hadd.trans (List.append_nil _), hr, fun _ => trivial⟩
  case leaves last hi _ hl =>
    have hwritten : texts (s.written ++ last) = texts s.written := by
      obtain rfl | rfl := hl <;> simp [texts, SocketMessage.text?]
    refine ⟨back, front, ?_, ?_, hr, fun hq => absurd hq hw.not_works⟩
    case _ => exact hwritten.symm ▸ hb
    case _ => exact hwritten.symm ▸ ha

theorem effect (h : Returning w s) (he : Effect w s event w' s') : Returning w' s' := by
  cases he
  case turn p choice t hp ht hw =>
    have hm : Returning w' s := h.mono fun _ => hw.worked
    cases p
    case socketReader => cases Session.socketReaderTurn ht <;> exact hm
    case callWriter   => cases Session.callWriterTurn ht <;> exact hm
    case callReader   => exact h.callReader hp (Session.callReaderTurn ht) hw
    case socketWriter => exact h.socketWriter hp (Session.socketWriterTurn ht) hw
  case panics p hw => exact h.mono fun q hq => ((hw q).mp hq).1
  case leaves q p hp =>
    obtain ⟨back, front, hb, ha, hr, hf⟩ := h
    refine ⟨back, front, ?_⟩
    cases p
    case callReader                => exact ⟨hb, ha, fun hw => absurd hw hp, hf⟩
    case socketWriter              => exact ⟨hb, ha, hr, fun hw => absurd hw hp⟩
    case socketReader | callWriter => exact ⟨hb, ha, hr, hf⟩
  case aside _ _ hs => cases hs; exact h
  case delivers | arrives | peerTakes | peerLeaves => exact h

end Returning

theorem payloads_append (frames more : List Frame) :
    payloads (frames ++ more) = payloads frames ++ payloads more :=
  List.filterMap_append

theorem payloads_beforeBinary_concat {frames : List Frame} (h : ∀ f ∈ frames, f.isBinary = false)
    (f : Frame) : payloads (beforeBinary (frames ++ [f])) = payloads frames ++ payloads [f] := by
  have hb : beforeBinary (frames ++ [f]) = frames ++ beforeBinary [f] :=
    List.takeWhile_append_of_pos (by simpa using h)
  rw [hb, payloads_append]
  cases f <;> rfl

-- Everything that the socket came by was taken or waits; the texts among what was taken were read,
-- and no text follows a frame that is binary.
def Reading (offered : List Frame) (w : Pump → Prop) (s : Session) : Prop :=
  ∃ taken, offered = taken ++ s.source ∧ s.read = payloads taken ∧
    s.read = payloads (beforeBinary taken) ∧
    (w .socketReader → ∀ f ∈ taken, f.isBinary = false)

namespace Reading

variable {frames : List Frame}

theorem mono (h : Reading frames w s) (hw : ∀ q, w' q → w q) : Reading frames w' s := by
  obtain ⟨taken, ho, hr, hb, hn⟩ := h
  exact ⟨taken, ho, hr, hb, fun hq => hn (hw _ hq)⟩

theorem socketReader (h : Reading frames w s) (hp : w .socketReader) (ht : s.SocketReaderTurn t)
    (hw : t.Leaves .socketReader w w') : Reading frames w' t.session := by
  have hm : Reading frames w' s := h.mono fun _ => hw.worked
  obtain ⟨taken, ho, hr, hb, hn⟩ := h
  have hn := hn hp
  -- One more frame was taken.
  have htake {f : Frame} {rest : List Frame} (hs : s.source = f :: rest) :
      frames = (taken ++ [f]) ++ rest := by
    rw [ho, hs, List.append_assoc, List.singleton_append]
  have hread (f : Frame) : s.read ++ payloads [f] = payloads (taken ++ [f]) := by
    rw [hr, payloads_append]
  have hbinary (f : Frame) : s.read ++ payloads [f] = payloads (beforeBinary (taken ++ [f])) := by
    rw [hr, payloads_beforeBinary_concat hn]
  have hnone {f : Frame} (hf : f.payload? = none) : s.read = s.read ++ payloads [f] := by
    simp [payloads, hf]
  cases ht
  case stops | passes => exact hm
  case reads text rest hh hs =>
    refine ⟨_, htake hs, hread (.text text), hbinary (.text text), fun _ => ?_⟩
    exact List.forall_mem_append.mpr ⟨hn, List.forall_mem_singleton.mpr rfl⟩
  case skips f rest hs hf hb =>
    refine ⟨_, htake hs, (hnone hf).trans (hread f), (hnone hf).trans (hbinary f), fun _ => ?_⟩
    exact List.forall_mem_append.mpr ⟨hn, List.forall_mem_singleton.mpr hb⟩
  case refuses f rest _ hs hf =>
    refine ⟨_, htake hs, (hnone hf).trans (hread f), (hnone hf).trans (hbinary f), fun hq => ?_⟩
    exact absurd hq hw.not_works

theorem effect (h : Reading frames w s) (he : Effect w s event w' s') :
    Reading (frames ++ offered s event) w' s' := by
  have hnone (hf : event.frame? = none) : frames ++ offered s event = frames := by
    simp [offered, hf]
  cases he
  case turn p choice t hp ht hw =>
    rw [hnone rfl]
    have hm : Reading frames w' s := h.mono fun _ => hw.worked
    cases p
    case socketReader => exact h.socketReader hp (Session.socketReaderTurn ht) hw
    case callWriter   => cases Session.callWriterTurn ht <;> exact hm
    case callReader   => cases Session.callReaderTurn ht <;> exact hm
    case socketWriter => cases Session.socketWriterTurn ht <;> exact hm
  case panics p hw =>
    rw [hnone rfl]
    exact h.mono fun q hq => ((hw q).mp hq).1
  case leaves q p hp =>
    rw [hnone rfl]
    obtain ⟨taken, ho, hr, hb, hn⟩ := h
    refine ⟨taken, ?_⟩
    cases p <;> exact ⟨ho, hr, hb, hn⟩
  case delivers f =>
    obtain ⟨taken, ho, hr, hb, hn⟩ := h
    exact ⟨taken, by rw [ho, List.append_assoc], hr, hb, hn⟩
  case aside hf _ hs =>
    rw [hnone hf]
    cases hs
    exact h
  case arrives | peerTakes | peerLeaves => exact (hnone rfl).symm ▸ h

end Reading

-- Everything that arrived was received or waits, but for a status that ended the call.
def Receiving (arrived : List (Except Status Bytes)) (w : Pump → Prop) (s : Session) : Prop :=
  ∃ status : Option Status,
    arrived = s.received.map .ok ++ status.toList.map .error ++ s.call.inbox ∧
    (w .callReader → status = none)

namespace Receiving

variable {items : List (Except Status Bytes)}

theorem mono (h : Receiving items w s) (hw : ∀ q, w' q → w q) : Receiving items w' s := by
  obtain ⟨status, hi, hn⟩ := h
  exact ⟨status, hi, fun hq => hn (hw _ hq)⟩

theorem callReader (h : Receiving items w s) (hp : w .callReader) (ht : s.CallReaderTurn t)
    (hw : t.Leaves .callReader w w') : Receiving items w' t.session := by
  have hm : Receiving items w' s := h.mono fun _ => hw.worked
  obtain ⟨status, hi, hn⟩ := h
  obtain rfl := hn hp
  cases ht
  case stops | passes => exact hm
  case receives payload rest hh hr =>
    exact ⟨none, by simp [hi, hr, Session.Turn.session], fun _ => rfl⟩
  case ends status inbox last hh hr _ =>
    exact ⟨status, by simp [hi, hr, Session.Turn.session], fun hq => absurd hq hw.not_works⟩

theorem effect (h : Receiving items w s) (he : Effect w s event w' s') :
    Receiving (items ++ event.arrival?.toList) w' s' := by
  have hnone (ha : event.arrival? = none) : items ++ event.arrival?.toList = items := by simp [ha]
  cases he
  case turn p choice t hp ht hw =>
    rw [hnone rfl]
    have hm : Receiving items w' s := h.mono fun _ => hw.worked
    cases p
    case socketReader => cases Session.socketReaderTurn ht <;> exact hm
    case callWriter   => cases Session.callWriterTurn ht <;> exact hm
    case callReader   => exact h.callReader hp (Session.callReaderTurn ht) hw
    case socketWriter => cases Session.socketWriterTurn ht <;> exact hm
  case panics p hw =>
    rw [hnone rfl]
    exact h.mono fun q hq => ((hw q).mp hq).1
  case leaves q p hp =>
    rw [hnone rfl]
    cases p <;> exact h
  case arrives item =>
    obtain ⟨status, hi, hn⟩ := h
    exact ⟨status, by simp [hi, Event.arrival?, Client.Duplex.arrive], hn⟩
  case aside _ ha hs =>
    rw [hnone ha]
    cases hs with | mk _ _ _ _ _ _ _ hi _ => ?_
    obtain ⟨status, ha, hn⟩ := h
    exact ⟨status, by rw [ha, hi], hn⟩
  case delivers | peerTakes | peerLeaves => exact (hnone rfl).symm ▸ h

end Receiving

-- What was handed to the call waits there, unless the peer took it or left.
def Handing (out : List Bytes) (s : Session) : Prop :=
  ∃ gone, out ++ s.handed = gone ++ s.call.outbox

theorem Handing.effect {out : List Bytes} (h : Handing out s) (he : Effect w s event w' s') :
    Handing out s' := by
  have ⟨gone, ho⟩ := h
  cases he
  case turn p choice t hp ht hw =>
    cases p
    case socketReader => cases Session.socketReaderTurn ht <;> exact h
    case callReader   => cases Session.callReaderTurn ht <;> exact h
    case socketWriter => cases Session.socketWriterTurn ht <;> exact h
    case callWriter =>
      cases Session.callWriterTurn ht
      case hands payload hh =>
        refine ⟨gone, ?_⟩
        simp only [Session.Turn.session, ← List.append_assoc, ho]
      all_goals exact h
  case leaves q p hp             => cases p <;> exact h
  case peerTakes payload rest hr => exact ⟨gone ++ [payload], by simp [ho, hr]⟩
  case peerLeaves                => exact ⟨out ++ s.handed, by simp [Client.Duplex.leave]⟩
  case panics | delivers | arrives => exact h
  case aside hs =>
    cases hs with | mk _ _ _ _ _ _ _ _ hr => ?_
    exact ⟨gone, by rw [ho, hr]⟩

-- Who closes the socket has begun to write the last frame.
structure Parting (w : Pump → Prop) (s : Session) : Prop where
  closing : w .socketWriter → s.socketWriter = .closing → s.attempted.getLast? = some .close
  parted  : ¬ w .socketWriter → .socketWriter ∉ s.panicked → s.attempted.getLast? = some .close

namespace Parting

theorem congr (h : Parting w s) (hw : w' .socketWriter ↔ w .socketWriter)
    (hs : s'.socketWriter = s.socketWriter := by rfl) (ha : s'.attempted = s.attempted := by rfl)
    (hp : s'.panicked = s.panicked := by rfl) : Parting w' s' := by
  refine ⟨fun hq => ?_, fun hq => ?_⟩
  case _ => exact hs ▸ ha ▸ h.closing (hw.mp hq)
  case _ => exact hp ▸ ha ▸ h.parted (mt hw.mpr hq)

theorem socketWriter (h : Parting w s) (hp : w .socketWriter) (ht : s.SocketWriterTurn t)
    (hw : t.Leaves .socketWriter w w') : Parting w' t.session := by
  -- What goes on works still.
  have hon {s' : Session} (ht : t = .on s') : w' .socketWriter :=
    (hw _).mpr ⟨hp, fun _ => ht ▸ trivial⟩
  have hclose : (s.attempted ++ [SocketMessage.close]).getLast? = some .close :=
    List.getLast?_concat
  cases ht
  case parts  => exact ⟨fun _ _ => hclose, fun hq => absurd (hon rfl) hq⟩
  case breaks => exact ⟨fun _ _ => hclose, fun hq => absurd (hon rfl) hq⟩
  case pings | takes =>
    refine ⟨fun _ hq => ?_, fun hq => absurd (hon rfl) hq⟩
    simp [Session.Turn.session, Session.beginWrite] at hq
  case writes =>
    refine ⟨fun _ hq => ?_, fun hq => absurd (hon rfl) hq⟩
    simp [Session.Turn.session] at hq
  case leaves last hi _ _ => exact ⟨fun hq => absurd hq hw.not_works, fun _ _ => h.closing hp hi⟩

theorem effect (h : Parting w s) (he : Effect w s event w' s') : Parting w' s' := by
  cases he
  case turn p choice t hp ht hw =>
    have hiff (hn : .socketWriter ≠ p) := hw.works_iff hn
    cases p
    case socketReader => cases Session.socketReaderTurn ht <;> exact h.congr (hiff (by simp))
    case callWriter   => cases Session.callWriterTurn ht <;> exact h.congr (hiff (by simp))
    case callReader   => cases Session.callReaderTurn ht <;> exact h.congr (hiff (by simp))
    case socketWriter => exact h.socketWriter hp (Session.socketWriterTurn ht) hw
  case panics p hw =>
    refine ⟨fun hq => h.closing ((hw _).mp hq).1, fun hq hn => ?_⟩
    obtain ⟨hn, hs⟩ : .socketWriter ≠ p ∧ .socketWriter ∉ s.panicked := by
      simpa [Session.noteOfPanic] using hn
    exact h.parted (fun hq' => hq ((hw _).mpr ⟨hq', hn⟩)) hs
  case leaves q p hp =>
    cases p
    case socketWriter => exact ⟨fun hq => absurd hq hp, h.parted⟩
    all_goals exact h.congr .rfl
  case aside hs => cases hs; exact h.congr .rfl
  case delivers | arrives | peerTakes | peerLeaves => exact h.congr .rfl

end Parting

structure Relaying (frames : List Frame) (items : List (Except Status Bytes)) (out : List Bytes)
    (w : Pump → Prop) (s : Session) : Prop where
  reading    : Reading frames w s
  forwarding : Forwarding w s
  handing    : Handing out s
  receiving  : Receiving items w s
  returning  : Returning w s
  parting    : Parting w s

-- What the socket comes by in a run, and what arrives on the call.
def offers (v : Supervision) : List Event → List Frame
  | []              => []
  | event :: events => offered v.session event ++ (v.step event).offers events

def arrivals (events : List Event) : List (Except Status Bytes) :=
  events.filterMap Event.arrival?

theorem arrivals_cons (event : Event) (events : List Event) :
    arrivals (event :: events) = event.arrival?.toList ++ arrivals events := by
  cases event <;> rfl

theorem Relaying.run {frames : List Frame} {items : List (Except Status Bytes)} {out : List Bytes}
    (h : Relaying frames items out v.Working v.session) (events : List Event) :
    Relaying (frames ++ v.offers events) (items ++ arrivals events) out (v.run events).Working
      (v.run events).session := by
  induction events generalizing v frames items
  case nil => simpa [offers, arrivals, Supervision.run] using h
  case cons event events hi =>
    have he := v.effect event
    have hs : Relaying (frames ++ offered v.session event) (items ++ event.arrival?.toList) out
        (v.step event).Working (v.step event).session :=
      ⟨h.reading.effect he, h.forwarding.effect he, h.handing.effect he, h.receiving.effect he,
        h.returning.effect he, h.parting.effect he⟩
    rw [offers, arrivals_cons, ← List.append_assoc, ← List.append_assoc]
    exact hi hs

theorem Relaying.started (calls : Contention) (pingPeriod : Time) :
    Relaying [] calls.stream.inbox calls.stream.outbox (started calls pingPeriod).Working
      (started calls pingPeriod).session where
  reading    := ⟨[], rfl, rfl, rfl, by simp⟩
  forwarding := ⟨[], [], ⟨rfl, by simp, by simp [Supervision.started, Session.fresh], by simp⟩,
    fun _ => rfl, fun _ => rfl⟩
  handing    := ⟨[], List.append_nil _⟩
  receiving  := ⟨none, rfl, fun _ => rfl⟩
  returning  := ⟨[], [], ⟨rfl, by simp, by simp [Supervision.started, Session.fresh], by simp⟩,
    rfl, fun _ => rfl, fun _ => rfl⟩
  parting    := ⟨fun _ hs => by simp [Supervision.started, Session.fresh] at hs,
    fun hw => absurd rfl hw⟩

-- A session that relays, given the frames that the socket came by, what arrived on the call and
-- what was in the call's hands at first.
structure Relays (frames : List Frame) (items : List (Except Status Bytes)) (out : List Bytes)
    (v : Supervision) : Prop where
  -- The texts that were read are those among the frames taken, up to the first binary one.
  read : ∃ taken, frames = taken ++ v.session.source ∧ v.session.read = payloads taken ∧
    v.session.read = payloads (beforeBinary taken)
  handed : v.session.handed <+: v.session.read
  -- What was handed over is with the call, or no longer.
  accepted : ∃ gone, out ++ v.session.handed = gone ++ v.session.call.outbox
  waitsForCall : v.session.read.length ≤ v.session.handed.length + (Session.queueCapacity + 2)
  -- Messages were received as they arrived, up to a status that ended the call.
  received : ∃ status : Option Status, items =
    v.session.received.map .ok ++ status.toList.map .error ++ v.session.call.inbox
  attempted : texts v.session.attempted <+: v.session.received.map Bytes.lossy
  written : texts v.session.written <+: texts v.session.attempted
  waitsForSocket : v.session.received.length ≤
    (texts v.session.written).length + (Session.queueCapacity + 2)
  lastFrame : v.stage (.pump .socketWriter) ≠ .working → .socketWriter ∉ v.session.panicked →
    v.session.attempted.getLast? = some .close

-- Whatever the pumps of a session come to, and in whatever order, panics and cancellations
-- included: the call was handed a prefix of the texts that were read from the socket, of which none
-- came after a binary frame; the texts written to the socket are a prefix of the messages received
-- from the call, each read as text; in each direction no more than a queue and two hands lie
-- between; and where the pump that writes to the socket has stopped without a panic, the last frame
-- that it began to write is the close.
theorem session_relays (calls : Contention) (pingPeriod : Time) (events : List Event) :
    Relays ((started calls pingPeriod).offers events) (calls.stream.inbox ++ arrivals events)
      calls.stream.outbox ((started calls pingPeriod).run events) := by
  have h := (Relaying.started calls pingPeriod).run events
  obtain ⟨taken, ho, hr, hb, -⟩ := h.reading
  obtain ⟨status, hi, -⟩ := h.receiving
  obtain ⟨_, _, hforward, -⟩ := h.forwarding
  obtain ⟨_, _, hback, ha, -⟩ := h.returning
  exact {
    read           := ⟨taken, ho, hr, hb⟩
    handed         := (List.prefix_append ..).trans hforward.isPrefix
    accepted       := h.handing
    waitsForCall   := hforward.length_le
    received       := ⟨status, hi⟩
    attempted      := ha ▸ hback.isPrefix
    written        := ha ▸ List.prefix_append ..
    waitsForSocket := by simpa using hback.length_le
    lastFrame      := h.parting.parted
  }

end Supervision
end CallFabric.Gateway
