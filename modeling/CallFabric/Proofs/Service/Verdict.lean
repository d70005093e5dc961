import CallFabric.Demo.Behaviour
import CallFabric.Service.Task

namespace CallFabric.Service

-- What there is against a payload.
inductive Refusal
  | undecodable (e : CodecError)
  | rejected (reason : String)

def Refusal.fault : Refusal → Fault
  | .undecodable e   => ⟨-1, 400, "Unmarshal error: " ++ e.message⟩
  | .rejected reason => ⟨-1, 200, "param error: " ++ reason⟩

-- The request that a payload is, where it can be read over the initial datum and violates nothing.
def Request.accept (r : Request) (codec : Codec) (payload : Bytes) : Except Refusal Datum :=
  match codec.decodeOver r.shape r.initial payload with
  | .error e => .error (.undecodable e)
  | .ok d =>
    match r.violation d with
    | some reason => .error (.rejected reason)
    | none        => .ok d

namespace Request

variable {r : Request} {codec : Codec} {payload : Bytes}

theorem read_eq (r : Request) (codec : Codec) (payload : Bytes) :
    r.read codec payload = (r.accept codec payload).mapError Refusal.fault := by
  unfold read accept
  cases codec.decodeOver r.shape r.initial payload
  case error e => rfl
  case ok d    => cases hv : r.violation d <;> simp only [hv] <;> rfl

theorem read_refused {e : Refusal} (h : r.accept codec payload = .error e) :
    r.read codec payload = .error e.fault := by
  rw [read_eq, h]
  rfl

theorem read_accepted {d : Datum} (h : r.accept codec payload = .ok d) :
    r.read codec payload = .ok d := by
  rw [read_eq, h]
  rfl

end Request

-- What a call can come to.
inductive Verdict (α : Type)
  | unreceived (message : String)
  | refused (r : Refusal)
  | done (a : α)
  | unwritable (e : CodecError)
  | failed (e : HandlerError)
  | panicked (p : Panic)
  | exceeded (name : String)

namespace Verdict

variable {α : Type}

def result : Verdict α → Except Fault α
  | unreceived message => .error ⟨-1, 400, "stream recv: " ++ message⟩
  | refused r          => .error r.fault
  | done a             => .ok a
  | unwritable e       => .error ⟨-1, 500, "Marshal error: " ++ e.message⟩
  | failed e           => .error e.toFault
  | panicked p         => .error ⟨-1, 500, "handler panicked: " ++ p.message⟩
  | exceeded name      => .error ⟨-1, 408, name ++ " exceeded its deadline"⟩

def ofCompletion : Completion α → Verdict α
  | .value a => done a
  | .error e => failed e
  | .panic p => panicked p

theorem toResult_eq (completion : Completion Unit) :
    StreamCall.toResult completion = (ofCompletion completion).result := by
  cases completion <;> rfl

end Verdict

namespace UnaryCall

variable (c : UnaryCall)

-- What a look at a call that works finds out.
def finds? (p : Poll) : Option (Verdict Bytes) :=
  match p.progress with
  | some (.value d) =>
    match c.codec.encode d with
    | .ok reply => some (.done reply)
    | .error e  => some (.unwritable e)
  | some (.error e) => some (.failed e)
  | some (.panic cause) => some (.panicked cause)
  | none => if overdue c.deadline p.time then some (.exceeded c.name) else none

-- What a call comes to: the payload is refused, or the first look that finds out anything says.
inductive Concludes : List Poll → Verdict Bytes → Prop
  | refused {p : Poll} {polls : List Poll} {r : Refusal}
      (ha : c.request.accept c.codec c.payload = .error r) : Concludes (p :: polls) (.refused r)
  | found {d : Datum} {before after : List Poll} {p : Poll} {v : Verdict Bytes}
      (ha : c.request.accept c.codec c.payload = .ok d) (hb : ∀ q ∈ before, c.finds? q = none)
      (hp : c.finds? p = some v) : Concludes (before ++ p :: after) v

-- How the looks at a call and what it comes to belong together.
structure Classified (polls : List Poll) : Prop where
  once   : (c.run polls).called.length ≤ 1
  called : ∀ d, d ∈ (c.run polls).called ↔
    polls ≠ [] ∧ c.request.accept c.codec c.payload = .ok d
  single : ∀ v w, c.Concludes polls v → c.Concludes polls w → v = w
  result : ∀ r, (c.run polls).stage = .ended r ↔ ∃ v, c.Concludes polls v ∧ v.result = r
  stays  : ∀ r more, (c.run polls).stage = .ended r → c.run (polls ++ more) = c.run polls

variable {c}

def stageOf : Option (Verdict Bytes) → Stage
  | some v => .ended v.result
  | none   => .working

theorem look_eq (p : Poll) : c.look p = stageOf (c.finds? p) := by
  obtain ⟨time, progress⟩ := p
  rcases progress with - | d | e | p
  case none    => simp only [look, finds?]; split <;> rfl
  case value   => simp only [look, finds?, encodeReply]; cases c.codec.encode d <;> rfl
  case error   => rfl
  case panic   => rfl

theorem foldl_poll_ended (r : Except Fault Bytes) (called : List Datum) (polls : List Poll) :
    polls.foldl c.poll ⟨.ended r, called⟩ = ⟨.ended r, called⟩ := by
  induction polls
  case nil             => rfl
  case cons p polls hi => exact hi

-- Looks before the first that finds out anything leave a call as it was, and later ones as well.
theorem foldl_poll (called : List Datum) (polls : List Poll) (o : Option (Verdict Bytes)) :
    polls.foldl c.poll ⟨stageOf o, called⟩ =
      ⟨stageOf (o.or (polls.findSome? c.finds?)), called⟩ := by
  induction polls generalizing o
  case nil             => simp
  case cons p polls hi =>
    cases o
    case some v => exact foldl_poll_ended ..
    case none =>
      have hp : c.poll ⟨stageOf none, called⟩ p = ⟨stageOf (c.finds? p), called⟩ :=
        congrArg (UnaryTask.mk · called) (look_eq p)
      rw [List.foldl_cons, hp, hi, List.findSome?_cons, Option.none_or]
      cases c.finds? p <;> rfl

theorem run_refused {r : Refusal} (ha : c.request.accept c.codec c.payload = .error r) (p : Poll)
    (polls : List Poll) : c.run (p :: polls) = ⟨.ended (.error r.fault), []⟩ := by
  have hp : c.poll ⟨.fresh, []⟩ p = ⟨.ended (.error r.fault), []⟩ := by
    simp only [poll, Request.read_refused ha]
  rw [run, List.foldl_cons, hp, foldl_poll_ended]

theorem run_accepted {d : Datum} (ha : c.request.accept c.codec c.payload = .ok d) (p : Poll)
    (polls : List Poll) :
    c.run (p :: polls) = ⟨stageOf ((p :: polls).findSome? c.finds?), [d]⟩ := by
  have hp : c.poll ⟨.fresh, []⟩ p = ⟨stageOf (c.finds? p), [d]⟩ := by
    simp only [poll, Request.read_accepted ha, look_eq]
  rw [run, List.foldl_cons, hp, foldl_poll, List.findSome?_cons]
  cases c.finds? p <;> rfl

theorem concludes_iff_refused {r : Refusal} (ha : c.request.accept c.codec c.payload = .error r)
    {polls : List Poll} {v : Verdict Bytes} :
    c.Concludes polls v ↔ polls ≠ [] ∧ v = .refused r := by
  constructor
  case mp =>
    rintro (ha' | ha')
    case refused => exact ⟨by simp, by simp_all⟩
    case found   => simp_all
  case mpr =>
    rintro ⟨hn, rfl⟩
    obtain ⟨p, polls, rfl⟩ := List.exists_cons_of_ne_nil hn
    exact .refused ha

theorem concludes_iff_found {d : Datum} (ha : c.request.accept c.codec c.payload = .ok d)
    {polls : List Poll} {v : Verdict Bytes} :
    c.Concludes polls v ↔ polls.findSome? c.finds? = some v := by
  constructor
  case mp =>
    rintro (ha' | ⟨-, hb, hp⟩)
    case refused => simp_all
    case found   => exact List.findSome?_eq_some_iff.mpr ⟨_, _, _, rfl, hp, hb⟩
  case mpr =>
    intro h
    obtain ⟨before, p, after, rfl, hp, hb⟩ := List.findSome?_eq_some_iff.mp h
    exact .found ha hb hp

theorem stageOf_eq_ended {o : Option (Verdict Bytes)} {r : Except Fault Bytes} :
    stageOf o = .ended r ↔ ∃ v, o = some v ∧ v.result = r := by
  cases o <;> simp [stageOf]

theorem run_append {polls : List Poll} {r : Except Fault Bytes}
    (h : (c.run polls).stage = .ended r) (more : List Poll) :
    c.run (polls ++ more) = c.run polls := by
  rw [run, List.foldl_append, ← run]
  generalize c.run polls = t at h
  obtain ⟨stage, called⟩ := t
  obtain rfl : stage = .ended r := h
  exact foldl_poll_ended ..

theorem classified (c : UnaryCall) (polls : List Poll) : c.Classified polls := by
  have hstays (r : Except Fault Bytes) (more : List Poll) (h : (c.run polls).stage = .ended r) :
      c.run (polls ++ more) = c.run polls := run_append h more
  cases polls
  case nil =>
    have hn : ∀ v, ¬c.Concludes [] v := by
      intro v h
      generalize he : ([] : List Poll) = polls at h
      cases h <;> simp at he
    exact ⟨by simp [run], by simp [run], fun v _ h => absurd h (hn v), by simp [run, hn], hstays⟩
  case cons p polls =>
    cases ha : c.request.accept c.codec c.payload
    case error r =>
      have hr := run_refused ha p polls
      refine ⟨by simp [hr], by simp [hr, ha], fun v w hv hw => ?_, fun result => ?_, hstays⟩
      · rw [concludes_iff_refused ha] at hv hw
        rw [hv.2, hw.2]
      · simp [hr, concludes_iff_refused ha, Verdict.result]
    case ok d =>
      have hr := run_accepted ha p polls
      refine ⟨by simp [hr], fun x => ?_, fun v w hv hw => ?_, fun result => ?_, hstays⟩
      · simp only [hr, ha, List.mem_singleton, ne_eq, reduceCtorEq, not_false_eq_true, true_and,
          Except.ok.injEq]
        exact eq_comm
      · rw [concludes_iff_found ha] at hv hw
        exact Option.some.inj (hv.symm.trans hw)
      · simp only [hr, stageOf_eq_ended, concludes_iff_found ha]

section Punctual

variable (work : Datum → Work) (now : Time)

-- What a handler that started at a time has come to at another.
def progressAt (c : UnaryCall) (t : Time) : Option (Completion Datum) :=
  match c.request.accept c.codec c.payload with
  | .error _ => none
  | .ok d    => (work d).progress now t

def pollsAt (c : UnaryCall) (times : List Time) : List Poll :=
  times.map fun t => ⟨t, c.progressAt work now t⟩

-- Whether the handler or the deadline is due at a time.
def due (c : UnaryCall) (t : Time) : Bool :=
  (c.progressAt work now t).isSome || overdue c.deadline t

-- Looks at once, and no later than in the tick in which something is due. There may be others.
structure Punctual (c : UnaryCall) (times : List Time) : Prop where
  first  : times.head? = some now
  later  : ∀ t ∈ times, now ≤ t
  heard  : ∀ u, now ≤ u → c.due work now u → ∃ t ∈ times, c.due work now t
  prompt : ∀ t ∈ times, c.due work now t →
    t = now ∨ ∀ u, now ≤ u → c.due work now u → t / millisecond ≤ u / millisecond

-- Whether a call that is looked at comes to the answer that is given at once for its work.
structure Agrees (c : UnaryCall) (handler : CallView → Datum → Work) (view : CallView)
    (times : List Time) : Prop where
  result : ∀ r, (c.run (c.pollsAt (handler view) now times)).stage = .ended r ↔
    ∃ a, callUnary c.name c.request handler c.codec view now c.deadline c.payload = some a ∧
      a.result = r
  called : ∀ a,
    callUnary c.name c.request handler c.codec view now c.deadline c.payload = some a →
      (c.run (c.pollsAt (handler view) now times)).called = a.handled.toList

variable {work now} {times : List Time} {handler : CallView → Datum → Work} {view : CallView}

theorem Agrees.of_answer {a : Answer}
    (ha : callUnary c.name c.request handler c.codec view now c.deadline c.payload = some a)
    (hr : c.run (c.pollsAt (handler view) now times) = ⟨.ended a.result, a.handled.toList⟩) :
    c.Agrees now handler view times := by
  refine ⟨fun r => ?_, fun b hb => ?_⟩
  · simp [hr, ha]
  · obtain rfl := Option.some.inj (ha.symm.trans hb)
    rw [hr]

theorem finds_isSome (t : Time) :
    (c.finds? ⟨t, c.progressAt work now t⟩).isSome = c.due work now t := by
  unfold finds? due
  rcases c.progressAt work now t with - | d | e | p
  case none    => simp only; split <;> simp_all
  case value   => simp only; split <;> rfl
  case error   => rfl
  case panic   => rfl

theorem pollsAt_ne_nil (hp : c.Punctual work now times) :
    ∃ p polls, c.pollsAt work now times = p :: polls := by
  obtain ⟨t, times, rfl⟩ := List.exists_cons_of_ne_nil (l := times) (by
    rintro rfl
    cases hp.first)
  exact ⟨_, _, rfl⟩

-- What is found out first decides.
theorem run_due {d : Datum} (ha : c.request.accept c.codec c.payload = .ok d)
    (hp : c.Punctual work now times) {u : Time} (hu : now ≤ u) (hd : c.due work now u) :
    ∃ t ∈ times, c.due work now t ∧
      c.run (c.pollsAt work now times) = ⟨c.look ⟨t, (work d).progress now t⟩, [d]⟩ := by
  obtain ⟨p, polls, he⟩ := pollsAt_ne_nil hp
  have hs : (times.findSome? fun t => c.finds? ⟨t, c.progressAt work now t⟩).isSome := by
    obtain ⟨t, ht, hd⟩ := hp.heard u hu hd
    exact List.findSome?_isSome_iff.mpr ⟨t, ht, (finds_isSome t).trans hd⟩
  obtain ⟨v, hv⟩ := Option.isSome_iff_exists.mp hs
  obtain ⟨t, ht, hf⟩ := List.exists_of_findSome?_eq_some hv
  have hg : c.progressAt work now t = (work d).progress now t := by simp only [progressAt, ha]
  refine ⟨t, ht, (finds_isSome t).symm.trans (by rw [hf]; rfl), ?_⟩
  have hfind : (c.pollsAt work now times).findSome? c.finds? = some v := by
    rw [pollsAt, List.findSome?_map]
    exact hv
  rw [← hg, look_eq, hf, ← hfind, he]
  exact run_accepted ha p polls

theorem run_not_due {d : Datum} (ha : c.request.accept c.codec c.payload = .ok d)
    (hp : c.Punctual work now times) (hd : ∀ u, now ≤ u → c.due work now u = false) :
    c.run (c.pollsAt work now times) = ⟨.working, [d]⟩ := by
  obtain ⟨p, polls, he⟩ := pollsAt_ne_nil hp
  have hfind : (c.pollsAt work now times).findSome? c.finds? = none := by
    rw [pollsAt, List.findSome?_map, List.findSome?_eq_none_iff]
    intro t ht
    have hn := (finds_isSome t).trans (hd t (hp.later t ht))
    exact Option.isNone_iff_eq_none.mp (Option.isSome_eq_false_iff.mp hn)
  rw [he] at hfind ⊢
  rw [run_accepted ha, hfind]
  rfl

theorem look_overdue {t : Time} (h : overdue c.deadline t) :
    c.look ⟨t, none⟩ = .ended c.exceeded := by
  simp only [look, h, if_true]

theorem lt_div_iff {q t m : Nat} (hm : 0 < m) : q < (t + m - 1) / m ↔ q * m < t := by
  rw [← Nat.add_one_le_iff, Nat.le_div_iff_mul_le hm, Nat.succ_mul]
  omega

theorem lt_tick_iff {q : Nat} {t : Time} : q < tick t ↔ q * millisecond < t :=
  lt_div_iff (by decide)

theorem tick_started (now : Time) {delay : Time} (h : delay ≠ 0) :
    now / millisecond < tick (now + delay) :=
  lt_tick_iff.mpr (Nat.lt_of_le_of_lt (Nat.div_mul_le_self now millisecond)
    (Nat.lt_add_of_pos_right (Nat.pos_of_ne_zero h)))

-- A call that starts at a tick starts before every deadline of a later tick.
theorem lt_of_tick_lt {now deadline : Time} (hn : millisecond ∣ now)
    (h : now / millisecond < tick deadline) : now < deadline := by
  have := lt_tick_iff.mp h
  rwa [Nat.div_mul_cancel hn] at this

theorem progress_later {w : Work} {delay : Time} (hw : w.delay = some delay) (h0 : delay ≠ 0)
    (now t : Time) : w.progress now t =
      if tick (now + delay) ≤ t / millisecond then some w.completion else none := by
  obtain ⟨n, rfl⟩ := Nat.exists_eq_succ_of_ne_zero h0
  simp only [Work.progress, hw]

theorem tick_le_div {t u : Time} (h : tick t * millisecond ≤ u) : tick t ≤ u / millisecond :=
  (Nat.le_div_iff_mul_le (by decide)).mpr h

theorem overdue_iff {deadline : Time} (hl : c.deadline = some deadline) (t : Time) :
    overdue c.deadline t ↔ tick deadline ≤ t / millisecond := by
  rw [hl, overdue, Option.any_some, decide_eq_true_eq]

section Accepted

variable {d : Datum} (ha : c.request.accept c.codec c.payload = .ok d)
include ha

theorem due_accepted (t : Time) :
    c.due work now t ↔ ((work d).progress now t).isSome ∨ overdue c.deadline t := by
  simp only [due, progressAt, ha, Bool.or_eq_true]

-- A handler that never ends.
theorem agrees_never (hp : c.Punctual (handler view) now times)
    (hw : (handler view d).delay = none) : c.Agrees now handler view times := by
  have hg (t : Time) : (handler view d).progress now t = none := by simp only [Work.progress, hw]
  cases hl : c.deadline
  case none =>
    have hr := run_not_due ha hp fun u _ => Bool.eq_false_iff.mpr fun hd => by
      simp [due_accepted ha, hg, hl, overdue] at hd
    have hcall : callUnary c.name c.request handler c.codec view now c.deadline c.payload =
        none := by
      simp only [callUnary, Request.read_accepted ha, hw, hl]
    exact ⟨by simp [hr, hcall], by simp [hcall]⟩
  case some deadline =>
    have hd : c.due (handler view) now (now + tick deadline * millisecond) :=
      (due_accepted ha _).mpr (.inr ((overdue_iff hl _).mpr (tick_le_div (Nat.le_add_left ..))))
    obtain ⟨t, ht, htd, hr⟩ := run_due ha hp (Nat.le_add_right ..) hd
    rw [due_accepted ha, hg] at htd
    refine .of_answer (a := ⟨c.exceeded, max now deadline, some d⟩) ?_ ?_
    · simp only [callUnary, Request.read_accepted ha, hw, hl, exceeded]
    · rw [hr, hg, look_overdue (htd.resolve_left (by simp))]
      rfl

-- One that is done at once; no deadline is too early for it.
theorem agrees_prompt (hp : c.Punctual (handler view) now times)
    (hw : (handler view d).delay = some 0) : c.Agrees now handler view times := by
  have hg (t : Time) : (handler view d).progress now t = some (handler view d).completion := by
    simp only [Work.progress, hw]
  have hd : c.due (handler view) now now := (due_accepted ha now).mpr (.inl (by rw [hg]; rfl))
  obtain ⟨t, ht, -, hr⟩ := run_due ha hp (Nat.le_refl now) hd
  refine .of_answer (a := ⟨encodeReply c.codec (handler view d).completion, now, some d⟩) ?_ ?_
  · simp only [callUnary, Request.read_accepted ha, hw]
  · rw [hr, hg]
    rfl

-- One that is done after some time, in the tick of the deadline at the latest or too late.
theorem agrees_later (hn : millisecond ∣ now) (hp : c.Punctual (handler view) now times)
    {delay : Time} (hw : (handler view d).delay = some delay) (h0 : delay ≠ 0) :
    c.Agrees now handler view times := by
  have hg := progress_later hw h0 now
  have hdue (t : Time) : c.due (handler view) now t ↔
      tick (now + delay) ≤ t / millisecond ∨ overdue c.deadline t := by
    rw [due_accepted ha, hg]
    split
    case isTrue hle  => simp [hle]
    case isFalse hlt => simp [hlt]
  have hd : c.due (handler view) now (now + tick (now + delay) * millisecond) :=
    (hdue _).mpr (.inl (tick_le_div (Nat.le_add_left ..)))
  obtain ⟨t, ht, htd, hr⟩ := run_due ha hp (Nat.le_add_right ..) hd
  rw [hdue] at htd
  have hdone (hle : tick (now + delay) ≤ t / millisecond) :
      c.run (c.pollsAt (handler view) now times) =
        ⟨.ended (encodeReply c.codec (handler view d).completion), [d]⟩ := by
    rw [hr, hg, if_pos hle]
    rfl
  cases hl : c.deadline
  case none =>
    refine .of_answer
      (a := ⟨encodeReply c.codec (handler view d).completion, now + delay, some d⟩) ?_
      (hdone (htd.resolve_right (by simp [hl, overdue])))
    simp only [callUnary, Request.read_accepted ha, hw, hl]
  case some deadline =>
    have hover := overdue_iff hl t
    rw [hover] at htd
    by_cases hle : tick (now + delay) ≤ tick deadline
    case pos =>
      have hlt : now < deadline :=
        lt_of_tick_lt hn (Nat.lt_of_lt_of_le (tick_started now h0) hle)
      refine .of_answer
        (a := ⟨encodeReply c.codec (handler view d).completion, now + delay, some d⟩) ?_
        (hdone (htd.elim id (Nat.le_trans hle)))
      simp only [callUnary, Request.read_accepted ha, hw, hl, hle, hlt, and_self, if_true]
    case neg =>
      have hlt : t / millisecond < tick (now + delay) := by
        obtain rfl | hprompt := hp.prompt t ht ((hdue t).mpr (htd.imp_right hover.mpr))
        case inl => exact tick_started t h0
        case inr =>
          -- The deadline is due before the work is, if not already when the call starts.
          have hover (u : Time) (hu : tick deadline ≤ u / millisecond) :
              c.due (handler view) now u :=
            (hdue u).mpr (.inr ((overdue_iff hl u).mpr hu))
          rcases Nat.le_total now (tick deadline * millisecond) with hm | hm
          · have hu := hprompt _ hm (hover _ (tick_le_div (Nat.le_refl _)))
            rw [Nat.mul_div_cancel _ (by decide)] at hu
            exact Nat.lt_of_le_of_lt hu (Nat.not_le.mp hle)
          · have hu := hprompt now (Nat.le_refl now) (hover now (tick_le_div hm))
            exact Nat.lt_of_le_of_lt hu (tick_started now h0)
      refine .of_answer (a := ⟨c.exceeded, max now deadline, some d⟩) ?_ ?_
      · simp only [callUnary, Request.read_accepted ha, hw, hl, hle, false_and, if_false, exceeded]
      · rw [hr, hg, if_neg (Nat.not_le.mpr hlt),
          look_overdue (hover.mpr (htd.resolve_left (Nat.not_le.mpr hlt)))]
        rfl

end Accepted

theorem agrees (hn : millisecond ∣ now) (hp : c.Punctual (handler view) now times) :
    c.Agrees now handler view times := by
  cases ha : c.request.accept c.codec c.payload
  case error r =>
    obtain ⟨p, polls, he⟩ := pollsAt_ne_nil hp
    refine .of_answer (a := ⟨.error r.fault, now, none⟩) ?_ (by rw [he, run_refused ha]; rfl)
    simp only [callUnary, Request.read_refused ha]
  case ok d =>
    cases hw : (handler view d).delay
    case none       => exact agrees_never ha hp hw
    case some delay =>
      by_cases h0 : delay = 0
      case pos => exact agrees_prompt ha hp (h0 ▸ hw)
      case neg => exact agrees_later ha hn hp hw h0

end Punctual

end UnaryCall
end CallFabric.Service
