import CallFabric.Proofs.Pool.Conservation

namespace CallFabric.Pool

def AddressPool.HasRoom (p : AddressPool Nat) : Prop :=
  ∀ i ∈ p.arena.indices .available, ∀ e, p.arena.get? i = some e → e.streams < p.limits.maxStreams

namespace AddressPool

variable {p : AddressPool Nat} {claims : List (Claim Nat)}

-- An available entry that is full is so with a single stream.
theorem Sound.room_or_one {i : Nat} {e : Entry Nat} (s : p.Sound claims)
    (hi : i ∈ p.arena.indices .available) (he : p.arena.get? i = some e) :
    e.streams < p.limits.maxStreams ∨ p.limits.maxStreams = 1 ∧ e.streams = 1 := by
  have ⟨n, x, hx, hl⟩ := s.threaded.mem_indices.mp hi
  have ⟨y, hy, hyx⟩ := Arena.get?_of_cell? hx
  rw [he] at hy
  cases hy
  subst hyx
  have hle : e.streams ≤ p.limits.maxStreams := s.capped i n e.bare hx
  by_cases hf : e.streams = p.limits.maxStreams
  case pos =>
    have hone := s.roomy i n e.bare hx hl hf
    exact .inr ⟨hone, hf.trans hone⟩
  case neg => exact .inl (Nat.lt_of_le_of_ne hle hf)

-- Where nothing is tracked nothing is on a list.
theorem Sound.indices_eq_nil (lane : Lane) (s : p.Sound claims) (hc : p.limits.capacity = 0) :
    p.arena.indices lane = [] := by
  refine List.eq_nil_iff_forall_not_mem.mpr fun i hi => ?_
  have ⟨n, e, he, _⟩ := s.threaded.mem_indices.mp hi
  have hpos := List.length_pos_of_mem (Arena.mem_entries.mpr ⟨i, n, he⟩)
  have hle := s.within
  omega

end AddressPool

namespace System

-- The first connection of a pool, where it may carry one stream.
theorem full_when_taken_in (capacity ttl maxIdle : Nat) :
    ∃ p, ((new (.of (capacity + 1) ttl maxIdle 1)).run [.acquire "a"]).manager.pool? 0 = some p ∧
      ¬p.HasRoom := by
  refine ⟨_, rfl, fun h => ?_⟩
  exact absurd (h 0 (.head _) _ rfl) (Nat.lt_irrefl 1)

theorem available_have_room_iff (capacity ttl maxIdle maxStreams : Nat) :
    ((∀ events n p,
        ((new (.of capacity ttl maxIdle maxStreams)).run events).manager.pool? n = some p →
          p.HasRoom) ↔
      capacity = 0 ∨ 2 ≤ maxStreams) ∧
    ∀ events n p,
      ((new (.of capacity ttl maxIdle maxStreams)).run events).manager.pool? n = some p →
        ∀ i ∈ p.arena.indices .available, ∀ e, p.arena.get? i = some e →
          e.streams < max maxStreams 1 ∨ maxStreams ≤ 1 ∧ e.streams = 1 := by
  have hroom : ∀ events n p,
      ((new (.of capacity ttl maxIdle maxStreams)).run events).manager.pool? n = some p →
        ∀ i ∈ p.arena.indices .available, ∀ e, p.arena.get? i = some e →
          e.streams < max maxStreams 1 ∨ maxStreams ≤ 1 ∧ e.streams = 1 := by
    intro events n p hp i hi e he
    have ⟨hl, hs⟩ := (sound_run capacity ttl maxIdle maxStreams events).pools n p hp
    have hm : p.limits.maxStreams = max maxStreams 1 := congrArg Limits.maxStreams hl
    have hr := hs.room_or_one hi he
    omega
  refine ⟨⟨fun h => ?_, fun h events n p hp i hi e he => ?_⟩, hroom⟩
  case refine_1 =>
    by_contra hn
    have ⟨c, hc⟩ : ∃ c, capacity = c + 1 := Nat.exists_eq_succ_of_ne_zero fun hc => hn (.inl hc)
    have hm : max maxStreams 1 = max 1 1 := by omega
    have hl : Limits.of capacity ttl maxIdle maxStreams = .of (c + 1) ttl maxIdle 1 := by
      simp only [Limits.of, hc, hm]
    have ⟨p, hp, hfull⟩ := full_when_taken_in c ttl maxIdle
    exact hfull (h [.acquire "a"] 0 p (by rw [hl]; exact hp))
  case refine_2 =>
    have ⟨hl, hs⟩ := (sound_run capacity ttl maxIdle maxStreams events).pools n p hp
    have hm : p.limits.maxStreams = max maxStreams 1 := congrArg Limits.maxStreams hl
    cases h
    case inl h =>
      have hnil := hs.indices_eq_nil .available (by rw [hl]; exact h)
      simp [hnil] at hi
    case inr h =>
      have hr := hroom events n p hp i hi e he
      omega

-- A pool that tracks two connections of two streams each, one of them on its available list.
theorem available_have_room_of_two :
    let s := (new (.of 2 60 1 2)).run [.acquire "a", .acquire "a", .acquire "a"]
    2 ≤ 2 ∧ ∃ p, s.manager.pool? 0 = some p ∧ p.arena.indices .available = [1] ∧ p.HasRoom :=
  ⟨Nat.le_refl 2, _, rfl, rfl, (available_have_room_iff 2 60 1 2).1.mpr (.inr (Nat.le_refl 2))
    [.acquire "a", .acquire "a", .acquire "a"] 0 _ rfl⟩

-- The single stream of a connection is taken when it is taken in.
theorem taken_in_without_room :
    ∃ p, ((new (.of 1 60000000000 1 1)).run [.acquire "a"]).manager.pool? 0 = some p ∧ ¬p.HasRoom :=
  full_when_taken_in 0 60000000000 1

end System
end CallFabric.Pool
