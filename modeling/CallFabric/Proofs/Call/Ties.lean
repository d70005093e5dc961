import Mathlib.Logic.Relation
import CallFabric.Call.Context

namespace CallFabric

def Token.line (t : Token) : List Nat := t.id :: t.ancestors

theorem Cancellation.isCancelled_iff {c : Cancellation} {t : Token} :
    c.isCancelled t ↔ ∃ n ∈ t.line, n ∈ c.cancelled := by
  simp [isCancelled, Token.line]

namespace Family

-- How the token of a member is tied to those that there were.
inductive Link
  | own
  | under (of : Nat)
  | same (of : Nat)
  deriving DecidableEq, Repr

-- That the token of one member is the token of another, or the next below it.
inductive Tied (links : List Link) : Nat → Nat → Prop
  | under {i p : Nat} (h : links[i]? = some (.under p)) : Tied links i p
  | same {i p : Nat} (h : links[i]? = some (.same p)) : Tied links i p
  | shared {i p : Nat} (h : links[i]? = some (.same p)) : Tied links p i

variable {i p : Nat}

theorem getElem?_snoc {α : Type} {as : List α} {a b : α} :
    (as ++ [a])[i]? = some b ↔ as[i]? = some b ∨ i = as.length ∧ a = b := by
  rcases Nat.lt_trichotomy i as.length with h | rfl | h
  · simp [List.getElem?_append_left h, Nat.ne_of_lt h]
  · simp
  · have hn : (as ++ [a])[i]? = none := List.getElem?_eq_none (by
      rw [List.length_append]
      exact Nat.succ_le_of_lt h)
    simp [hn, List.getElem?_eq_none (Nat.le_of_lt h), Nat.ne_of_gt h]

theorem tied_iff {ls : List Link} : Tied ls i p ↔
    ls[i]? = some (.under p) ∨ ls[i]? = some (.same p) ∨ ls[p]? = some (.same i) := by
  constructor
  case mp =>
    intro h
    cases h
    case under h  => exact .inl h
    case same h   => exact .inr (.inl h)
    case shared h => exact .inr (.inr h)
  case mpr =>
    rintro (h | h | h)
    · exact .under h
    · exact .same h
    · exact .shared h

theorem tied_snoc {ls : List Link} {l : Link} : Tied (ls ++ [l]) i p ↔
    Tied ls i p ∨ i = ls.length ∧ (l = .under p ∨ l = .same p) ∨ p = ls.length ∧ l = .same i := by
  simp only [tied_iff, getElem?_snoc]
  grind

theorem follows_snoc {ls : List Link} (h : Relation.ReflTransGen (Tied ls) i p) (l : Link) :
    Relation.ReflTransGen (Tied (ls ++ [l])) i p :=
  h.lift id fun _ _ h => tied_snoc.mpr (.inl h)

-- How tokens come about, of which the next has the number `next`.
inductive Kin : List Link → List Token → Nat → Prop
  | nil : Kin [] [] 0
  | own {links tokens next} (h : Kin links tokens next) :
      Kin (links ++ [.own]) (tokens ++ [⟨next, []⟩]) (next + 1)
  | under {links tokens next p t} (h : Kin links tokens next) (hp : tokens[p]? = some t) :
      Kin (links ++ [.under p]) (tokens ++ [⟨next, t.line⟩]) (next + 1)
  | same {links tokens next p t} (h : Kin links tokens next) (hp : tokens[p]? = some t) :
      Kin (links ++ [.same p]) (tokens ++ [t]) next

namespace Kin

variable {ls : List Link} {ts : List Token} {next : Nat} {t u : Token}

theorem length_eq (h : Kin ls ts next) : ls.length = ts.length := by
  induction h <;> simp_all

theorem getElem?_last (h : Kin ls ts next) (t : Token) : (ts ++ [t])[ls.length]? = some t := by
  simp [h.length_eq]

theorem lt_next (h : Kin ls ts next) (ht : ts[i]? = some t) : ∀ n ∈ t.line, n < next := by
  induction h generalizing i t
  case nil => simp at ht
  case own hi =>
    rcases getElem?_snoc.mp ht with ht | ⟨_, rfl⟩
    · exact fun n hn => Nat.lt_succ_of_lt (hi ht n hn)
    · simp [Token.line]
  case under hp hi =>
    rcases getElem?_snoc.mp ht with ht | ⟨_, rfl⟩
    · exact fun n hn => Nat.lt_succ_of_lt (hi ht n hn)
    · exact List.forall_mem_cons.mpr
        ⟨Nat.lt_succ_self _, fun n hn => Nat.lt_succ_of_lt (hi hp n hn)⟩
  case same hp hi =>
    rcases getElem?_snoc.mp ht with ht | ⟨_, rfl⟩
    · exact hi ht
    · exact hi hp

-- Nothing is above what a member is tied to that is not above the member.
theorem line_subset (h : Kin ls ts next) (ht : Tied ls i p) :
    ∃ t u, ts[i]? = some t ∧ ts[p]? = some u ∧ u.line ⊆ t.line := by
  induction h generalizing i p
  case nil => simp [tied_iff] at ht
  case own hi =>
    rcases tied_snoc.mp ht with ht | ⟨_, hl | hl⟩ | ⟨_, hl⟩
    · have ⟨t, u, ht, hu, hs⟩ := hi ht
      exact ⟨t, u, getElem?_snoc.mpr (.inl ht), getElem?_snoc.mpr (.inl hu), hs⟩
    all_goals cases hl
  case under h hq hi =>
    rcases tied_snoc.mp ht with ht | ⟨rfl, hl | hl⟩ | ⟨_, hl⟩
    · have ⟨t, u, ht, hu, hs⟩ := hi ht
      exact ⟨t, u, getElem?_snoc.mpr (.inl ht), getElem?_snoc.mpr (.inl hu), hs⟩
    · cases hl
      exact ⟨_, _, h.getElem?_last _, getElem?_snoc.mpr (.inl hq), List.subset_cons_self ..⟩
    all_goals cases hl
  case same h hq hi =>
    rcases tied_snoc.mp ht with ht | ⟨rfl, hl | hl⟩ | ⟨rfl, hl⟩
    · have ⟨t, u, ht, hu, hs⟩ := hi ht
      exact ⟨t, u, getElem?_snoc.mpr (.inl ht), getElem?_snoc.mpr (.inl hu), hs⟩
    · cases hl
    · cases hl
      exact ⟨_, _, h.getElem?_last _, getElem?_snoc.mpr (.inl hq), List.Subset.refl _⟩
    · cases hl
      exact ⟨_, _, getElem?_snoc.mpr (.inl hq), h.getElem?_last _, List.Subset.refl _⟩

theorem id_mem_line (h : Kin ls ts next) (hf : Relation.ReflTransGen (Tied ls) i p)
    (hi : ts[i]? = some t) (hp : ts[p]? = some u) : u.id ∈ t.line := by
  induction hf using Relation.ReflTransGen.head_induction_on generalizing t
  case refl =>
    cases hi.symm.trans hp
    exact List.mem_cons_self
  case head ht _ hk =>
    have ⟨v, w, hv, hw, hs⟩ := h.line_subset ht
    cases hi.symm.trans hv
    exact hs (hk hw)

-- Who has the number of a member, its own or that of one above it, follows this member.
theorem follows (h : Kin ls ts next) (hi : ts[i]? = some t) (hp : ts[p]? = some u)
    (hu : u.id ∈ t.line) : Relation.ReflTransGen (Tied ls) i p := by
  induction h generalizing i p t u
  case nil => simp at hi
  case own h hk =>
    rcases getElem?_snoc.mp hi with oi | ⟨rfl, rfl⟩ <;>
      rcases getElem?_snoc.mp hp with op | ⟨rfl, rfl⟩
    · exact follows_snoc (hk oi op hu) _
    · exact absurd (h.lt_next oi _ hu) (Nat.lt_irrefl _)
    · cases hu
      case head    => exact absurd (h.lt_next op _ List.mem_cons_self) (Nat.lt_irrefl _)
      case tail hu => cases hu
    · exact .refl
  case under ls ts _ q _ h hq hk =>
    rcases getElem?_snoc.mp hi with oi | ⟨rfl, rfl⟩ <;>
      rcases getElem?_snoc.mp hp with op | ⟨rfl, rfl⟩
    · exact follows_snoc (hk oi op hu) _
    · exact absurd (h.lt_next oi _ hu) (Nat.lt_irrefl _)
    · cases hu
      case head    => exact absurd (h.lt_next op _ List.mem_cons_self) (Nat.lt_irrefl _)
      case tail hu =>
        have ht : Tied (ls ++ [.under q]) ts.length q :=
          tied_snoc.mpr (.inr (.inl ⟨h.length_eq.symm, .inl rfl⟩))
        exact .head ht (follows_snoc (hk hq op hu) _)
    · exact .refl
  case same ls ts _ q _ h hq hk =>
    rcases getElem?_snoc.mp hi with oi | ⟨rfl, rfl⟩ <;>
      rcases getElem?_snoc.mp hp with op | ⟨rfl, rfl⟩
    · exact follows_snoc (hk oi op hu) _
    · have ht : Tied (ls ++ [.same q]) q ts.length :=
        tied_snoc.mpr (.inr (.inr ⟨h.length_eq.symm, rfl⟩))
      exact .tail (follows_snoc (hk oi hq hu) _) ht
    · have ht : Tied (ls ++ [.same q]) ts.length q :=
        tied_snoc.mpr (.inr (.inl ⟨h.length_eq.symm, .inr rfl⟩))
      exact .head ht (follows_snoc (hk hq op hu) _)
    · exact .refl

end Kin

end Family
end CallFabric
