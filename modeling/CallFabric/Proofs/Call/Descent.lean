import Mathlib.Data.List.Induction
import Mathlib.Order.Bounds.Defs
import CallFabric.Call.Family
import CallFabric.Proofs.Call.Ties

namespace CallFabric

namespace Family

def Birth.link : Birth → Link
  | .token | .new _ | .background           => .own
  | .childToken i | .child i | .childOf i _ => .under i
  | .sameToken i | .clone i                 => .same i

def Birth.origin? : Birth → Option Nat
  | .child i | .clone i => some i
  | _                   => none

def Gift.deadline? (now : Time) : Gift → Option Time
  | .deadline d => some d
  | .timeout t  => some (now + t)
  | .metadata _ => none

namespace Event

def link? : Event → Option Link
  | .join birth                      => some birth.link
  | .give _ _ | .cancel _ | .wait _ => none

def time : Event → Time
  | .wait t                          => t
  | .join _ | .give _ _ | .cancel _ => 0

end Event

def links (events : List Event) : List Link := events.filterMap Event.link?

def clock (events : List Event) : Time := events.foldl (fun now e => now + e.time) 0

-- Whom a member follows is it, shares its token or has one above it.
def Follows (events : List Event) : Nat → Nat → Prop := Relation.ReflTransGen (Tied (links events))

-- Every deadline that a member was given, or that its origin had been given when it was derived.
inductive Bears : List Event → Nat → Time → Prop
  | given {events : List Event} {i : Nat} {gift : Gift} {d : Time}
      (h : gift.deadline? (clock events) = some d) : Bears (events ++ [.give i gift]) i d
  | inherited {events : List Event} {birth : Birth} {p : Nat} {d : Time}
      (ho : birth.origin? = some p) (h : Bears events p d) :
      Bears (events ++ [.join birth]) (links events).length d
  | kept {events : List Event} {i : Nat} {d : Time} (e : Event) (h : Bears events i d) :
      Bears (events ++ [e]) i d

-- The earliest of the times with a property, if there are any.
def Earliest (p : Time → Prop) : Option Time → Prop
  | none   => ∀ d, ¬p d
  | some d => IsLeast {t | p t} d

variable {events : List Event} {e : Event} {f g : Family} {i p : Nat} {d : Time}

theorem links_snoc (events : List Event) (e : Event) :
    links (events ++ [e]) = links events ++ e.link?.toList := by
  cases e <;> simp [links, Event.link?]

@[simp] theorem links_join (b : Birth) : links (events ++ [.join b]) = links events ++ [b.link] :=
  links_snoc ..

@[simp] theorem links_give (i : Nat) (gift : Gift) :
    links (events ++ [.give i gift]) = links events := by
  simp [links_snoc, Event.link?]

@[simp] theorem links_cancel (i : Nat) : links (events ++ [.cancel i]) = links events := by
  simp [links_snoc, Event.link?]

@[simp] theorem links_wait (t : Time) : links (events ++ [.wait t]) = links events := by
  simp [links_snoc, Event.link?]

theorem mem_cancel_snoc {g : Nat} :
    .cancel g ∈ events ++ [.cancel i] ↔ .cancel g ∈ events ∨ g = i := by
  simp

@[simp] theorem clock_snoc (events : List Event) (e : Event) :
    clock (events ++ [e]) = clock events + e.time := by
  simp [clock]

theorem run_snoc :
    f.run (events ++ [e]) = some g ↔ ∃ h, f.run events = some h ∧ h.step e = some g := by
  simp [run, List.foldlM_append, Option.bind_eq_some_iff]

theorem bears_snoc : Bears (events ++ [e]) i d ↔
    Bears events i d ∨
    (∃ gift, e = .give i gift ∧ gift.deadline? (clock events) = some d) ∨
    ∃ birth p, e = .join birth ∧ birth.origin? = some p ∧ i = (links events).length ∧
      Bears events p d := by
  constructor
  case mp =>
    intro h
    generalize hl : events ++ [e] = log at h
    cases h
    case given gift hd =>
      have ⟨he, hg⟩ := List.append_inj' hl rfl
      simp at hg
      exact .inr (.inl ⟨gift, hg, he ▸ hd⟩)
    case inherited birth p ho hp =>
      have ⟨he, hb⟩ := List.append_inj' hl rfl
      simp at hb
      exact .inr (.inr ⟨birth, p, hb, ho, he ▸ rfl, he ▸ hp⟩)
    case kept h =>
      have ⟨he, _⟩ := List.append_inj' hl rfl
      exact .inl (he ▸ h)
  case mpr =>
    rintro (h | ⟨gift, rfl, hd⟩ | ⟨birth, p, rfl, ho, rfl, hp⟩)
    · exact .kept e h
    · exact .given hd
    · exact .inherited ho hp

@[simp] theorem bears_join (b : Birth) : Bears (events ++ [.join b]) i d ↔
    Bears events i d ∨
      i = (links events).length ∧ ∃ p, b.origin? = some p ∧ Bears events p d := by
  simp only [bears_snoc]
  grind

@[simp] theorem bears_give (j : Nat) (gift : Gift) : Bears (events ++ [.give j gift]) i d ↔
    Bears events i d ∨ j = i ∧ gift.deadline? (clock events) = some d := by
  simp only [bears_snoc]
  grind

@[simp] theorem bears_cancel (j : Nat) : Bears (events ++ [.cancel j]) = Bears events := by
  funext i d
  simp [bears_snoc]

@[simp] theorem bears_wait (t : Time) : Bears (events ++ [.wait t]) = Bears events := by
  funext i d
  simp [bears_snoc]

def tokens (f : Family) : List Token := f.members.map Held.token

theorem token?_eq (f : Family) (i : Nat) : f.token? i = f.tokens[i]? := by
  simp [token?, tokens]

theorem token?_of_context? {ctx : Context} (h : f.context? i = some ctx) :
    f.tokens[i]? = some ctx.token := by
  have ⟨held, hm, hc⟩ := Option.bind_eq_some_iff.mp h
  cases held
  case bare        => cases hc
  case context ctx => cases hc; simp [tokens, hm, Held.token]

-- What there is to say of a new member and the tokens that there are with it.
structure Born (f : Family) (b : Birth) (held : Held) (c : Cancellation) : Prop where
  kin {ls : List Link} (h : Kin ls f.tokens f.cancellation.next) :
    Kin (ls ++ [b.link]) (f.tokens ++ [held.token]) c.next
  cancelled : c.cancelled = f.cancellation.cancelled
  deadline {ctx : Context} (h : held.context? = some ctx) :
    match b.origin? with
    | none   => ctx.deadline = none
    | some p => ∃ origin, f.context? p = some origin ∧ ctx.deadline = origin.deadline

theorem born_of_born? {b : Birth} {held : Held} {c : Cancellation}
    (h : f.born? b = some (held, c)) : Born f b held c := by
  cases b
  case token =>
    cases h
    exact ⟨.own, rfl, fun h => by cases h⟩
  case new m =>
    cases h
    exact ⟨.own, rfl, fun h => by cases h; rfl⟩
  case background =>
    cases h
    exact ⟨.own, rfl, fun h => by cases h; rfl⟩
  case childToken i =>
    have ⟨t, ht, he⟩ := Option.map_eq_some_iff.mp h
    cases he
    exact ⟨fun h => .under h (f.token?_eq i ▸ ht), rfl, fun h => by cases h⟩
  case sameToken i =>
    have ⟨t, ht, he⟩ := Option.map_eq_some_iff.mp h
    cases he
    exact ⟨fun h => .same h (f.token?_eq i ▸ ht), rfl, fun h => by cases h⟩
  case childOf i m =>
    have ⟨t, ht, he⟩ := Option.map_eq_some_iff.mp h
    cases he
    exact ⟨fun h => .under h (f.token?_eq i ▸ ht), rfl, fun h => by cases h; rfl⟩
  case child i =>
    have ⟨ctx, hc, he⟩ := Option.map_eq_some_iff.mp h
    cases he
    refine ⟨fun h => .under h (token?_of_context? hc), rfl, fun h => ?_⟩
    cases h
    exact ⟨ctx, hc, rfl⟩
  case clone i =>
    have ⟨ctx, hc, he⟩ := Option.map_eq_some_iff.mp h
    cases he
    refine ⟨fun h => .same h (token?_of_context? hc), rfl, fun h => ?_⟩
    cases h
    exact ⟨ctx, hc, rfl⟩

theorem Earliest.congr {p q : Time → Prop} {d? : Option Time} (h : Earliest p d?)
    (hq : ∀ d, q d ↔ p d) : Earliest q d? := by
  have hp : q = p := funext fun d => propext (hq d)
  rwa [hp]

theorem Earliest.withDeadline {p q : Time → Prop} {ctx : Context} (h : Earliest p ctx.deadline)
    {d : Time} (hq : ∀ e, q e ↔ p e ∨ d = e) : Earliest q (ctx.withDeadline d).deadline := by
  cases hc : ctx.deadline <;> simp only [hc, Earliest] at h
  case none =>
    have hd : ∀ e, q e ↔ d = e := fun e => (hq e).trans (or_iff_right (h e))
    simp only [Context.withDeadline, hc, Option.map_none, Option.getD_none, Earliest]
    exact ⟨(hd d).mpr rfl, fun e he => Nat.le_of_eq ((hd e).mp he)⟩
  case some c =>
    simp only [Context.withDeadline, hc, Option.map_some, Option.getD_some, Earliest]
    refine ⟨(hq _).mpr ?mem, fun e he => ?least⟩
    case mem =>
      rcases Nat.le_total c d with hd | hd
      · exact .inl ((Nat.min_eq_left hd).symm ▸ h.1)
      · exact .inr (Nat.min_eq_right hd).symm
    case least =>
      rcases (hq e).mp he with he | rfl
      · exact Nat.le_trans (Nat.min_le_left ..) (h.2 he)
      · exact Nat.min_le_right ..

theorem Gift.token_to (now : Time) (ctx : Context) (gift : Gift) :
    (gift.to now ctx).token = ctx.token := by
  cases gift <;> rfl

theorem Gift.deadline_to {p q : Time → Prop} {ctx : Context} (h : Earliest p ctx.deadline)
    {now : Time} {gift : Gift} (hq : ∀ e, q e ↔ p e ∨ gift.deadline? now = some e) :
    Earliest q (gift.to now ctx).deadline := by
  cases gift
  case deadline d => exact h.withDeadline (by simpa [Gift.deadline?] using hq)
  case timeout t  => exact h.withDeadline (by simpa [Gift.deadline?] using hq)
  case metadata m => exact h.congr (by simpa [Gift.deadline?] using hq)

-- What the history says of a family.
structure Recorded (events : List Event) (f : Family) : Prop where
  now       : f.now = clock events
  kin       : Kin (links events) f.tokens f.cancellation.next
  cancelled : ∀ n, n ∈ f.cancellation.cancelled ↔
    ∃ g, .cancel g ∈ events ∧ ∃ t, f.tokens[g]? = some t ∧ t.id = n
  deadline  : ∀ i ctx, f.context? i = some ctx → Earliest (Bears events i) ctx.deadline
  held      : ∀ g, .cancel g ∈ events → g < f.tokens.length
  borne     : ∀ i d, Bears events i d → i < f.tokens.length

namespace Recorded

theorem start : Recorded [] start where
  now       := rfl
  kin       := .nil
  cancelled := by simp [Family.start, Cancellation.empty]
  deadline  := by simp [Family.start, context?]
  held      := by simp
  borne i d h := by
    generalize hl : [] = log at h
    cases h <;> simp at hl

theorem wait (h : Recorded events f) (t : Time) :
    Recorded (events ++ [.wait t]) { f with now := f.now + t } where
  now       := by simp [h.now, Event.time]
  kin       := by simpa [tokens] using h.kin
  cancelled := by simpa [tokens] using h.cancelled
  deadline  := by simpa [context?] using h.deadline
  held      := by simpa [tokens] using h.held
  borne     := by simpa [tokens] using h.borne

theorem cancel (h : Recorded events f) {t : Token} (ht : f.tokens[i]? = some t) :
    Recorded (events ++ [.cancel i]) { f with cancellation := f.cancellation.cancel t } where
  now       := by simp [h.now, Event.time]
  kin       := by rw [links_cancel]; exact h.kin
  cancelled n := by
    have hi : (∃ u, f.tokens[i]? = some u ∧ u.id = n) ↔ n = t.id := by simp [ht, eq_comm]
    have hg : n ∈ f.cancellation.cancelled ↔ _ := h.cancelled n
    simp only [Cancellation.cancel, List.mem_cons, hg, mem_cancel_snoc]
    constructor
    case mp =>
      rintro (hn | ⟨g, hg, hu⟩)
      · exact ⟨i, .inr rfl, hi.mpr hn⟩
      · exact ⟨g, .inl hg, hu⟩
    case mpr =>
      rintro ⟨g, hg | rfl, hu⟩
      · exact .inr ⟨g, hg, hu⟩
      · exact .inl (hi.mp hu)
  deadline  := by simpa [context?] using h.deadline
  held g hg := by
    rcases mem_cancel_snoc.mp hg with hg | rfl
    · exact h.held g hg
    · exact (List.getElem?_eq_some_iff.mp ht).1
  borne     := by simpa [tokens] using h.borne

theorem give (h : Recorded events f) {ctx : Context} (hc : f.context? i = some ctx) (gift : Gift) :
    Recorded (events ++ [.give i gift])
      { f with members := f.members.set i (.context (gift.to f.now ctx)) } := by
  have ⟨hi, hi'⟩ := List.getElem?_eq_some_iff.mp (token?_of_context? hc)
  have ht : tokens { f with members := f.members.set i (.context (gift.to f.now ctx)) } =
      f.tokens := by
    rw [tokens, List.map_set, Held.token, Gift.token_to, ← hi']
    exact List.set_getElem_self hi
  constructor
  case now       => simp [h.now, Event.time]
  case kin       => simpa [ht] using h.kin
  case cancelled => simpa [ht] using h.cancelled
  case held      => simpa [ht] using h.held
  case borne =>
    simp only [bears_give, ht]
    rintro j d (hb | ⟨rfl, _⟩)
    · exact h.borne j d hb
    · exact hi
  case deadline =>
    intro j new hj
    rw [context?, List.getElem?_set] at hj
    by_cases hij : i = j
    case neg =>
      rw [if_neg hij] at hj
      exact (h.deadline j new hj).congr (by simp [hij])
    case pos =>
      subst hij
      have hl : i < f.members.length := by simpa [tokens] using hi
      have hn : gift.to f.now ctx = new := by simpa [hl, Held.context?] using hj
      rw [← hn, h.now]
      exact Gift.deadline_to (h.deadline i ctx hc) (by simp)

theorem join (h : Recorded events f) {b : Birth} {held : Held} {c : Cancellation}
    (hb : Born f b held c) : Recorded (events ++ [.join b])
      { f with cancellation := c, members := f.members ++ [held] } := by
  have ht : tokens { f with cancellation := c, members := f.members ++ [held] } =
      f.tokens ++ [held.token] := by
    simp [tokens]
  have hl : (links events).length = f.members.length := by
    rw [h.kin.length_eq, tokens, List.length_map]
  constructor
  case now => simp [h.now, Event.time]
  case kin => simpa [ht] using hb.kin h.kin
  case cancelled =>
    intro n
    simp only [hb.cancelled, h.cancelled n, ht, List.mem_append, List.mem_singleton, reduceCtorEq,
      or_false]
    exact exists_congr fun g => and_congr_right fun hg => by
      rw [List.getElem?_append_left (h.held g hg)]
  case held =>
    intro g hg
    have hg := h.held g (by simpa using hg)
    simpa [ht] using Nat.lt_succ_of_lt hg
  case borne =>
    simp only [bears_join, ht, List.length_append]
    rintro j d (hb | ⟨rfl, _⟩)
    · exact Nat.lt_succ_of_lt (h.borne j d hb)
    · exact h.kin.length_eq ▸ Nat.lt_succ_self _
  case deadline =>
    intro j new hj
    have ⟨x, hx, hc⟩ := Option.bind_eq_some_iff.mp hj
    rcases getElem?_snoc.mp hx with hx | ⟨rfl, rfl⟩
    · have hj : j ≠ f.members.length := Nat.ne_of_lt (List.getElem?_eq_some_iff.mp hx).1
      have hd := h.deadline j new (Option.bind_eq_some_iff.mpr ⟨x, hx, hc⟩)
      exact hd.congr (by simp [hl, hj])
    · -- What is new was given nothing yet.
      have hn (d : Time) : ¬Bears events f.members.length d := fun hd => by
        simpa [tokens] using h.borne _ d hd
      have hd := hb.deadline hc
      cases ho : b.origin? <;> simp only [ho] at hd
      case none => simp [hd, Earliest, hl, ho, hn]
      case some p =>
        have ⟨origin, hp, hd⟩ := hd
        exact hd ▸ (h.deadline p origin hp).congr (by simp [hl, ho, hn])

theorem step (h : Recorded events f) (hs : f.step e = some g) : Recorded (events ++ [e]) g := by
  cases e
  case wait t =>
    cases hs
    exact h.wait t
  case cancel i =>
    have ⟨t, ht, he⟩ := Option.map_eq_some_iff.mp hs
    cases he
    exact h.cancel (f.token?_eq i ▸ ht)
  case give i gift =>
    have ⟨ctx, hc, he⟩ := Option.map_eq_some_iff.mp hs
    cases he
    exact h.give hc gift
  case join b =>
    have ⟨⟨held, c⟩, hb, he⟩ := Option.map_eq_some_iff.mp hs
    cases he
    exact h.join (born_of_born? hb)

theorem isCancelled_iff (h : Recorded events f) {ctx : Context} (hc : f.context? i = some ctx) :
    ctx.isCancelled f.cancellation ↔ ∃ g, .cancel g ∈ events ∧ Follows events i g := by
  have hi := token?_of_context? hc
  simp only [Context.isCancelled, Cancellation.isCancelled_iff, h.cancelled]
  constructor
  case mp =>
    rintro ⟨_, hn, g, hg, t, ht, rfl⟩
    exact ⟨g, hg, h.kin.follows hi ht hn⟩
  case mpr =>
    intro ⟨g, hg, hf⟩
    have ht := List.getElem?_eq_getElem (h.held g hg)
    exact ⟨_, h.kin.id_mem_line hf hi ht, g, hg, _, ht, rfl⟩

end Recorded

theorem recorded_of_run (h : start.run events = some f) : Recorded events f := by
  induction events using List.reverseRecOn generalizing f
  case nil =>
    cases h
    exact .start
  case append_singleton events e hi =>
    have ⟨g, hg, hs⟩ := run_snoc.mp h
    exact (hi hg).step hs

-- Whatever was done until then: a context is cancelled if one that it follows was, at whatever
-- time, and else it is not; its deadline is the earliest of those that it was given and those that
-- its origin had when it was derived, and there is none if there were none; and what remains is the
-- time up to it, or nothing once it has passed.
theorem follows_derivation {ctx : Context} (h : start.run events = some f)
    (hc : f.context? i = some ctx) :
    (ctx.isCancelled f.cancellation ↔ ∃ g, .cancel g ∈ events ∧ Follows events i g) ∧
    Earliest (Bears events i) ctx.deadline ∧
    ctx.remaining? f.now = ctx.deadline.map fun d : Time => ((d : Int) - clock events).toNat := by
  have hr := recorded_of_run h
  refine ⟨hr.isCancelled_iff hc, hr.deadline i ctx hc, ?_⟩
  simp [Context.remaining?, hr.now]

-- Cancelled by its clone, with a child that was cancelled as well; the deadline is that of its
-- origin, which was given an earlier one only afterwards, as was the clone.
theorem follows_derivation_from_clone :
    let events : List Event :=
      [.join .token, .join (.childOf 0 .empty), .give 1 (.timeout 30), .join (.child 1),
        .join (.clone 2), .wait 10, .give 1 (.deadline 5), .give 3 (.deadline 20), .join (.child 2),
        .cancel 4, .cancel 3]
    ∃ f ctx, start.run events = some f ∧ f.context? 2 = some ctx ∧
      ctx.isCancelled f.cancellation ∧ Earliest (Bears events 2) (some 30) ∧
      ctx.remaining? f.now = some 20 := by
  intro events
  have ⟨f, hf⟩ : ∃ f, start.run events = some f := ⟨_, rfl⟩
  have ⟨ctx, hc, hd⟩ : ∃ ctx, f.context? 2 = some ctx ∧ ctx.deadline = some 30 := by
    cases hf
    exact ⟨_, rfl, rfl⟩
  have ⟨hi, hb, hl⟩ := follows_derivation hf hc
  have ht : Tied (links events) 2 3 := .shared rfl
  refine ⟨f, ctx, hf, hc, hi.mpr ⟨3, by simp [events], .single ht⟩, hd ▸ hb, ?_⟩
  rw [hl, hd]
  rfl

end Family
end CallFabric
