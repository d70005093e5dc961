import CallFabric.Service.Directory

namespace CallFabric.Service

def Descriptor.keys (x : Descriptor) : List String := x.name :: x.aliases

-- What is registered of a service's method, with the endpoint that it is registered by.
def Descriptor.ofEntry : String × Method × Option Endpoint → Descriptor
  | (service, m, endpoint) =>
    let name := keyOf service m.name
    ⟨name, Directory.aliasesOf name endpoint, m.requestType, m.replyType, m.handler⟩

namespace Directory

variable {d d' d'' : Directory} {x : Descriptor} {xs ys : List Descriptor} {key : String}

-- Whether a directory is another one with descriptors added under keys that nothing had.
structure Adds (d : Directory) (xs : List Descriptor) (d' : Directory) : Prop where
  codecs   : d'.codecs = d.codecs
  fresh    : ∀ x ∈ xs, ∀ key ∈ x.keys, d.get? key = none
  disjoint : xs.Pairwise fun x y => ∀ key ∈ x.keys, key ∉ y.keys
  get?     : ∀ key, d'.get? key = (xs.find? (key ∈ ·.keys)).or (d.get? key)

namespace Adds

theorem refl (d : Directory) : d.Adds [] d := ⟨rfl, by simp, .nil, fun _ => rfl⟩

theorem mem_or_get? (h : d.Adds xs d') (hx : d'.get? key = some x) :
    (x ∈ xs ∧ key ∈ x.keys) ∨ d.get? key = some x := by
  rw [h.get?, Option.or_eq_some_iff] at hx
  rcases hx with hf | ⟨-, hx⟩
  case inl => exact .inl ⟨List.mem_of_find?_eq_some hf, by simpa using List.find?_some hf⟩
  case inr => exact .inr hx

-- What a key names is never replaced.
theorem keeps (h : d.Adds xs d') (hx : d.get? key = some x) : d'.get? key = some x := by
  have hf : xs.find? (key ∈ ·.keys) = none := by
    simp only [List.find?_eq_none, decide_eq_true_eq]
    intro y hy hk
    simp [h.fresh y hy key hk] at hx
  rw [h.get?, hf, hx, Option.none_or]

theorem get?_of_mem (h : d.Adds xs d') (hx : x ∈ xs) (hk : key ∈ x.keys) :
    d'.get? key = some x := by
  obtain ⟨before, after, rfl⟩ := List.append_of_mem hx
  have hf : before.find? (key ∈ ·.keys) = none := by
    simp only [List.find?_eq_none, decide_eq_true_eq]
    intro y hy hky
    exact (List.pairwise_append.mp h.disjoint).2.2 y hy x List.mem_cons_self key hky hk
  rw [h.get?, List.find?_append, hf]
  simp [hk]

theorem trans (h : d.Adds xs d') (h' : d'.Adds ys d'') : d.Adds (xs ++ ys) d'' := by
  -- What is added later has no key that was given before.
  have hn {y key} (hy : y ∈ ys) (hk : key ∈ y.keys) :
      xs.find? (key ∈ ·.keys) = none ∧ d.get? key = none := by
    rw [← Option.or_eq_none_iff, ← h.get?]
    exact h'.fresh y hy key hk
  refine ⟨h'.codecs.trans h.codecs, ?fresh, ?disjoint, ?get?⟩
  case fresh =>
    intro x hx key hk
    exact (List.mem_append.mp hx).elim (h.fresh x · key hk) (hn · hk |>.2)
  case disjoint =>
    refine List.pairwise_append.mpr ⟨h.disjoint, h'.disjoint, fun x hx y hy key hkx hky => ?_⟩
    simpa [hkx] using List.find?_eq_none.mp (hn hy hky).1 x hx
  case get? =>
    intro key
    rw [h'.get?, h.get?, List.find?_append, Option.or_assoc]
    cases hy : ys.find? (key ∈ ·.keys)
    case none   => simp
    case some y =>
      have hk : key ∈ y.keys := by simpa using List.find?_some hy
      rw [(hn (List.mem_of_find?_eq_some hy) hk).1]
      simp

end Adds

-- Whether every key names a descriptor that has it, and every descriptor stands under all it has.
structure Consistent (d : Directory) : Prop where
  named : ∀ key x, d.get? key = some x → key ∈ x.keys
  whole : ∀ key x, d.get? key = some x → ∀ k ∈ x.keys, d.get? k = some x

namespace Consistent

theorem empty (codecs : Codec.Registry) : (Directory.empty codecs).Consistent :=
  ⟨fun _ _ h => (nomatch h), fun _ _ h => (nomatch h)⟩

theorem adds (hd : d.Consistent) (h : d.Adds xs d') : d'.Consistent where
  named key x hx := (h.mem_or_get? hx).elim And.right (hd.named key x)
  whole key x hx k hk := by
    rcases h.mem_or_get? hx with ⟨hm, -⟩ | hx
    case inl => exact h.get?_of_mem hm hk
    case inr => exact h.keeps (hd.whole key x hx k hk)

end Consistent

-- Why a method cannot be registered: what is wrong with it, or with its endpoint, or which of its
-- keys is taken.
inductive Refuses (d : Directory) (service : String) (m : Method) (endpoint : Option Endpoint) :
    RegistryError → Prop
  | emptyName (hm : m.name = "") : Refuses d service m endpoint (.emptyName service)
  | streamMismatch (e : Endpoint) (he : endpoint = some e)
    (hs : e.isStream ≠ m.handler.kind.isStream) :
    Refuses d service m endpoint
      (.streamMismatch (keyOf service m.name) e.isStream m.handler.kind)
  | duplicateKey (key : String) (x : Descriptor)
    (hk : key ∈ (Descriptor.ofEntry (service, m, endpoint)).keys) (hx : d.get? key = some x) :
    Refuses d service m endpoint (.duplicateKey key x.name)

variable {service : String} {m : Method} {endpoint : Option Endpoint} {e : RegistryError}

theorem taken?_eq_none_iff {keys : List String} :
    d.taken? keys = none ↔ ∀ key ∈ keys, d.get? key = none := by
  simp [taken?]

theorem get?_foldl_insert (x : Descriptor) (keys : List String) (t : Table Descriptor) :
    (keys.foldl (fun t key => Table.insert key x t) t).get? key =
      if key ∈ keys then some x else t.get? key := by
  induction keys generalizing t
  case nil => rfl
  case cons k keys hi =>
    rw [List.foldl_cons, hi, Table.get?_insert]
    by_cases hk : key ∈ keys
    case pos => simp [hk]
    case neg => simp [hk, eq_comm]

theorem refuses_of_taken {key existing : String}
    (h : d.taken? (Descriptor.ofEntry (service, m, endpoint)).keys = some (key, existing)) :
    d.Refuses service m endpoint (.duplicateKey key existing) := by
  obtain ⟨k, hk, hf⟩ := List.exists_of_findSome?_eq_some h
  obtain ⟨x, hx, he⟩ := Option.map_eq_some_iff.mp hf
  cases he
  exact .duplicateKey _ x hk hx

-- A method is registered under all of its keys, or there is a reason why it is not.
theorem insert_cases (d : Directory) (service : String) (m : Method) (endpoint : Option Endpoint) :
    (∃ d', d.insert service m endpoint = .ok d' ∧ d.Adds [.ofEntry (service, m, endpoint)] d') ∨
    ∃ e, d.insert service m endpoint = .error e ∧ d.Refuses service m endpoint e := by
  simp only [insert]
  split
  case isTrue hm => exact .inr ⟨_, rfl, .emptyName hm⟩
  case isFalse =>
    split
    case isTrue hs =>
      obtain ⟨e, rfl⟩ : ∃ e, endpoint = some e := by
        cases endpoint
        case none   => simp at hs
        case some e => exact ⟨e, rfl⟩
      exact .inr ⟨_, rfl, .streamMismatch e rfl (by simpa using hs)⟩
    case isFalse =>
      split
      case h_1 ht => exact .inr ⟨_, rfl, refuses_of_taken ht⟩
      case h_2 ht =>
        refine .inl ⟨_, rfl, rfl, ?fresh, List.pairwise_singleton .., fun key => ?get?⟩
        case fresh =>
          rintro x hx
          obtain rfl := List.mem_singleton.mp hx
          exact taken?_eq_none_iff.mp ht
        case get? =>
          simp only [get?, Table.get?_insert, get?_foldl_insert, Descriptor.ofEntry,
            Descriptor.keys, List.find?_singleton, List.mem_cons, eq_comm (a := key)]
          by_cases hn : keyOf service m.name = key
          case pos => simp [hn]
          case neg =>
            by_cases ha : key ∈ aliasesOf (keyOf service m.name) endpoint <;> simp [hn, ha]

variable {entries : List (String × Method × Option Endpoint)} {added : Nat}

-- Either all are added, or those in front of the one that there is a reason against.
theorem insertAll_cases (d : Directory) (added : Nat)
    (entries : List (String × Method × Option Endpoint)) :
    (∃ d', d.insertAll added entries = (.ok (added + entries.length), d') ∧
      d.Adds (entries.map .ofEntry) d') ∨
    ∃ before service m endpoint after e d',
      entries = before ++ (service, m, endpoint) :: after ∧
      d.insertAll added entries = (.error e, d') ∧
      d.Adds (before.map .ofEntry) d' ∧ d'.Refuses service m endpoint e := by
  induction entries generalizing d added
  case nil => exact .inl ⟨d, rfl, .refl d⟩
  case cons entry entries hi =>
    obtain ⟨service, m, endpoint⟩ := entry
    simp only [insertAll]
    rcases insert_cases d service m endpoint with ⟨d', hd, ha⟩ | ⟨e, he, hr⟩
    case inr =>
      rw [he]
      exact .inr ⟨[], service, m, endpoint, entries, e, d, rfl, rfl, .refl d, hr⟩
    case inl =>
      rw [hd]
      rcases hi d' (added + 1) with
        ⟨d'', hr, ha'⟩ | ⟨before, s, m', o, after, e, d'', he, hr, ha', hn⟩
      case inl =>
        refine .inl ⟨d'', ?_, ha.trans ha'⟩
        rw [List.length_cons, Nat.add_comm entries.length, ← Nat.add_assoc]
        exact hr
      case inr =>
        exact .inr ⟨(service, m, endpoint) :: before, s, m', o, after, e, d'',
          congrArg _ he, hr, ha.trans ha', hn⟩

-- What is registered together: a service, or of some services what endpoints name.
inductive Batch
  | service (s : Definition)
  | listed (services : List Definition) (endpoints : List Endpoint)

namespace Batch

def methods : Batch → List (String × Method)
  | .service s => s.methods.map fun m => (s.name, m)
  | .listed services _ => services.flatMap fun s => s.methods.map fun m => (s.name, m)

-- With which endpoint a method of this name is registered, if it is: what no endpoint names is not.
def admits? : Batch → String → Option (Option Endpoint)
  | .service _, _ => some none
  | .listed _ endpoints, name => (endpoints.find? (·.method = name)).map some

def entry? (b : Batch) (p : String × Method) : Option (String × Method × Option Endpoint) :=
  (b.admits? (keyOf p.1 p.2.name)).map fun endpoint => (p.1, p.2, endpoint)

def describe (b : Batch) (methods : List (String × Method)) : List Descriptor :=
  (methods.filterMap b.entry?).map .ofEntry

-- Only what an endpoint names is registered, where there are endpoints.
theorem named_of_mem_describe {services : List Definition} {endpoints : List Endpoint}
    {methods : List (String × Method)} (hx : x ∈ describe (.listed services endpoints) methods) :
    ∃ e ∈ endpoints, e.method = x.name := by
  obtain ⟨entry, hm, rfl⟩ := List.mem_map.mp hx
  obtain ⟨p, -, hp⟩ := List.mem_filterMap.mp hm
  obtain ⟨endpoint, ha, rfl⟩ := Option.map_eq_some_iff.mp hp
  obtain ⟨e, he, rfl⟩ := Option.map_eq_some_iff.mp ha
  have hn : e.method = keyOf p.1 p.2.name := by simpa using List.find?_some he
  exact ⟨e, List.mem_of_find?_eq_some he, hn⟩

end Batch

def enter (d : Directory) : Batch → Registration
  | .service s => d.register s
  | .listed services endpoints => d.registerWith services endpoints

-- Registrations one after the other, whatever each of them comes to.
def enterAll (d : Directory) (batches : List Batch) : Directory :=
  batches.foldl (fun d b => (d.enter b).directory) d

theorem enter_eq (d : Directory) (b : Batch) :
    ((d.enter b).result, (d.enter b).directory) = d.insertAll 0 (b.methods.filterMap b.entry?) := by
  cases b
  case service s =>
    have hs : (s.methods.map fun m => (s.name, m, none)) =
        (Batch.methods (.service s)).filterMap (Batch.entry? (.service s)) := by
      rw [Batch.methods, List.filterMap_map]
      exact (congrFun List.filterMap_eq_map _).symm
    rw [← hs]
    rfl
  case listed services endpoints =>
    have hs : selected services endpoints =
        (Batch.methods (.listed services endpoints)).filterMap
          (Batch.entry? (.listed services endpoints)) := by
      simp only [selected, Batch.methods, List.filterMap_flatMap, List.filterMap_map]
      congr
      funext s
      congr
      funext m
      simp [Batch.entry?, Batch.admits?, Function.comp_def]
    rw [← hs, enter, registerWith]
    rcases d.insertAll 0 (selected services endpoints) with ⟨_ | _, _⟩ <;> rfl

-- A registration adds all that it can be asked for, or what stands in front of the method that it
-- fails at.
theorem enter_cases (d : Directory) (b : Batch) :
    ((d.enter b).result = .ok (b.describe b.methods).length ∧
      d.Adds (b.describe b.methods) (d.enter b).directory) ∨
    ∃ before service m after endpoint e,
      b.methods = before ++ (service, m) :: after ∧
      b.admits? (keyOf service m.name) = some endpoint ∧
      (d.enter b).result = .error e ∧ d.Adds (b.describe before) (d.enter b).directory ∧
      (d.enter b).directory.Refuses service m endpoint e := by
  rcases insertAll_cases d 0 (b.methods.filterMap b.entry?) with
    ⟨d', hr, ha⟩ | ⟨before, service, m, endpoint, after, e, d', hs, hr, ha, hn⟩
  case inl =>
    obtain ⟨he, rfl⟩ := Prod.mk.inj ((enter_eq d b).trans hr)
    exact .inl ⟨by rw [he, Nat.zero_add, Batch.describe, List.length_map], ha⟩
  case inr =>
    obtain ⟨he, rfl⟩ := Prod.mk.inj ((enter_eq d b).trans hr)
    obtain ⟨front, rest, hm, rfl, hc⟩ := List.filterMap_eq_append_iff.mp hs
    -- What no endpoint names may stand between the last that was added and the one that failed.
    obtain ⟨skipped, p, rest, rfl, hk, hp, -⟩ := List.filterMap_eq_cons_iff.mp hc
    obtain ⟨_, ho, hp⟩ := Option.map_eq_some_iff.mp hp
    cases hp
    refine .inr ⟨front ++ skipped, p.1, p.2, rest, _, e, ?_, ho, he, ?_, hn⟩
    case refine_1 => rw [hm, List.append_assoc]
    case refine_2 =>
      have hs : skipped.filterMap b.entry? = [] := List.filterMap_eq_nil_iff.mpr hk
      rwa [Batch.describe, List.filterMap_append, hs, List.append_nil]

theorem keeps_enter (b : Batch) (hx : d.get? key = some x) :
    (d.enter b).directory.get? key = some x := by
  rcases enter_cases d b with ⟨-, ha⟩ | ⟨_, _, _, _, _, _, -, -, -, ha, -⟩ <;> exact ha.keeps hx

theorem Consistent.enter (hd : d.Consistent) (b : Batch) : (d.enter b).directory.Consistent := by
  rcases enter_cases d b with ⟨-, ha⟩ | ⟨_, _, _, _, _, _, -, -, -, ha, -⟩ <;> exact hd.adds ha

theorem Consistent.enterAll (hd : d.Consistent) (batches : List Batch) :
    (d.enterAll batches).Consistent := by
  induction batches generalizing d
  case nil               => exact hd
  case cons b batches hi => exact hi (hd.enter b)

-- Whatever was registered, the next registration leaves what every key names as it is. If it
-- succeeds it adds all that it was asked for, with endpoints only what these name, and counts it.
-- If it fails it adds what stands in front of the method that it fails at, and for that method
-- there is a reason.
theorem registered_exactly (codecs : Codec.Registry) (batches : List Batch) :
    let d := (empty codecs).enterAll batches
    d.Consistent ∧ ∀ b : Batch,
      let r := d.enter b
      (∀ key x, d.get? key = some x → r.directory.get? key = some x) ∧
      (∀ n, r.result = .ok n →
        d.Adds (b.describe b.methods) r.directory ∧ n = (b.describe b.methods).length) ∧
      (∀ e, r.result = .error e → ∃ before service m after endpoint,
        b.methods = before ++ (service, m) :: after ∧
        b.admits? (keyOf service m.name) = some endpoint ∧
        d.Adds (b.describe before) r.directory ∧
        r.directory.Refuses service m endpoint e) ∧
      ∀ services endpoints, b = .listed services endpoints →
        ∀ x ∈ b.describe b.methods, ∃ e ∈ endpoints, e.method = x.name := by
  intro d
  refine ⟨(Consistent.empty codecs).enterAll batches, fun b => ⟨?keeps, ?all, ?part, ?listed⟩⟩
  case keeps => exact fun _ _ => keeps_enter b
  case all =>
    intro n hn
    rcases enter_cases d b with ⟨hr, ha⟩ | ⟨_, _, _, _, _, _, -, -, hr, -⟩
    case inl => exact ⟨ha, Except.ok.inj (hn.symm.trans hr)⟩
    case inr => cases hn.symm.trans hr
  case part =>
    intro e he
    rcases enter_cases d b with ⟨hr, -⟩ | ⟨before, s, m, after, o, e', hm, ho, hr, ha, hn⟩
    case inl => cases he.symm.trans hr
    case inr =>
      cases he.symm.trans hr
      exact ⟨before, s, m, after, o, hm, ho, ha, hn⟩
  case listed =>
    rintro services endpoints rfl x hx
    exact Batch.named_of_mem_describe hx

end Directory
end CallFabric.Service
