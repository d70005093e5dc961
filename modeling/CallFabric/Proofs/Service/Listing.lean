import CallFabric.Demo.Behaviour
import CallFabric.Proofs.Service.Registration

namespace CallFabric.Service

-- Whether a method is as an endpoint says: registered, found under the url, and with streams in the
-- directions that are declared.
structure Endpoint.InForce (e : Endpoint) (d : Directory) (x : Descriptor) : Prop where
  registered    : d.get? e.method = some x
  found         : e.url ≠ "" → d.get? e.url = some x
  clientStreams : e.clientStream = x.kind.clientStreams
  serverStreams : e.serverStream = x.kind.serverStreams

namespace Directory

variable {d d' : Directory} {x : Descriptor} {e first : Endpoint} {key service : String}
  {m : Method} {s : Definition} {services : List Definition} {endpoints : List Endpoint} {n : Nat}

theorem mem_keys_ofEntry : key ∈ (Descriptor.ofEntry (service, m, some e)).keys ↔
    key = keyOf service m.name ∨ key = e.url ∧ key ≠ "" := by
  simp only [Descriptor.ofEntry, Descriptor.keys, aliasesOf, List.mem_cons]
  split <;> grind

theorem Consistent.get?_iff (hd : d.Consistent) (hx : d.get? x.name = some x) :
    d.get? key = some x ↔ key ∈ x.keys :=
  ⟨hd.named key x, hd.whole x.name x hx key⟩

theorem isStream_of_insert (h : d.insert service m (some e) = .ok d') :
    e.isStream = m.handler.kind.isStream := by
  simp only [insert] at h
  split at h
  case isTrue => cases h
  case isFalse =>
    split at h
    case isTrue     => cases h
    case isFalse hs => simpa using hs

theorem isStream_of_insertAll {entries : List (String × Method × Option Endpoint)} {added : Nat}
    (h : d.insertAll added entries = (.ok n, d')) (hm : (service, m, some e) ∈ entries) :
    e.isStream = m.handler.kind.isStream := by
  induction entries generalizing d added
  case nil => cases hm
  case cons entry entries hi =>
    obtain ⟨service', m', endpoint⟩ := entry
    simp only [insertAll] at h
    split at h
    case h_1 => cases h
    case h_2 hd =>
      cases hm
      case head    => exact isStream_of_insert hd
      case tail hm => exact hi h hm

theorem exists_first (he : e ∈ endpoints) :
    ∃ first, endpoints.find? (·.method = e.method) = some first :=
  Option.isSome_iff_exists.mp (List.find?_isSome.mpr ⟨e, he, by simp⟩)

theorem mem_methods_listed (hs : s ∈ services) (hm : m ∈ s.methods) :
    (s.name, m) ∈ (Batch.listed services endpoints).methods :=
  List.mem_flatMap.mpr ⟨s, hs, List.mem_map_of_mem hm⟩

-- A method that an endpoint names is registered by the first that does.
theorem mem_entries_listed (hs : s ∈ services) (hm : m ∈ s.methods)
    (hf : endpoints.find? (·.method = keyOf s.name m.name) = some first) :
    (s.name, m, some first) ∈ (Batch.listed services endpoints).methods.filterMap
      (Batch.entry? (.listed services endpoints)) := by
  apply List.mem_filterMap.mpr
  refine ⟨(s.name, m), mem_methods_listed hs hm, ?_⟩
  simp [Batch.entry?, Batch.admits?, hf]

theorem adds_of_ok {b : Batch} (hr : (d.enter b).result = .ok n) :
    d.Adds (b.describe b.methods) (d.enter b).directory := by
  obtain ⟨-, ha⟩ | ⟨_, _, _, _, _, _, -, -, he, -⟩ := enter_cases d b
  case inl => exact ha
  case inr => cases he.symm.trans hr

-- After a registration by endpoints every endpoint that names a method has it registered, by the
-- first endpoint that names it, and this one declares a stream exactly if the method is one. An
-- endpoint is in force exactly if its url is none, the name or the url of the first, and it
-- declares the streams of either direction as they are.
theorem in_force_iff (codecs : Codec.Registry) (batches : List Batch)
    (hr : (((empty codecs).enterAll batches).registerWith services endpoints).result = .ok n)
    (he : e ∈ endpoints) (hs : s ∈ services) (hm : m ∈ s.methods)
    (hn : e.method = keyOf s.name m.name) :
    let d := (((empty codecs).enterAll batches).registerWith services endpoints).directory
    let kind := m.handler.kind
    ∃ first, endpoints.find? (·.method = e.method) = some first ∧
      first.isStream = kind.isStream ∧
      d.get? e.method = some (.ofEntry (s.name, m, some first)) ∧
      (e.InForce d (.ofEntry (s.name, m, some first)) ↔
        (e.url = "" ∨ e.url = e.method ∨ e.url = first.url) ∧
          e.clientStream = kind.clientStreams ∧ e.serverStream = kind.serverStreams) := by
  intro d kind
  obtain ⟨first, hf⟩ := exists_first he
  have hmem := mem_entries_listed hs hm (hn ▸ hf)
  have hd : d.Consistent := ((Consistent.empty codecs).enterAll batches).enter (.listed _ _)
  have hx : d.get? (keyOf s.name m.name) = some (.ofEntry (s.name, m, some first)) :=
    (adds_of_ok (b := .listed services endpoints) hr).get?_of_mem (List.mem_map_of_mem hmem)
      List.mem_cons_self
  have hk {key : String} : d.get? key = some (.ofEntry (s.name, m, some first)) ↔
      key = e.method ∨ key = first.url ∧ key ≠ "" := by
    rw [hn, ← mem_keys_ofEntry]
    exact hd.get?_iff hx
  refine ⟨first, hf, ?stream, hn ▸ hx, ?mp, ?mpr⟩
  case stream =>
    have hi := enter_eq ((empty codecs).enterAll batches) (.listed services endpoints)
    exact isStream_of_insertAll (hi.symm.trans (congrArg (·, d) hr)) hmem
  case mp =>
    rintro ⟨-, hu, hc, hs⟩
    refine ⟨?_, hc, hs⟩
    rcases Decidable.em (e.url = "") with hempty | hempty
    case inl => exact .inl hempty
    case inr => exact .inr ((hk.mp (hu hempty)).imp_right And.left)
  case mpr =>
    rintro ⟨hu, hc, hs⟩
    refine ⟨hn ▸ hx, fun hempty => hk.mpr ?_, hc, hs⟩
    exact (hu.resolve_left hempty).imp_right fun h => ⟨h, hempty⟩

-- A method by its url, and two more endpoints that name nothing.
theorem in_force_alone :
    let services := [Demo.service "A" [("Count", "count"), ("Echo", "echo")]]
    let e : Endpoint := ⟨"A.Count", "/count", false, true⟩
    let endpoints := [⟨"A.Ghost", "/ghost", true, true⟩, e, ⟨"", "/count", false, false⟩]
    let r := (empty .empty).registerWith services endpoints
    r.result = .ok 1 ∧ ∃ x, e.InForce r.directory x := by
  intro services e endpoints r
  have hr : (((empty .empty).enterAll []).registerWith services endpoints).result = .ok 1 := rfl
  obtain ⟨first, hf, -, -, hi⟩ := in_force_iff .empty [] hr (e := e) (by decide)
    List.mem_cons_self List.mem_cons_self rfl
  exact ⟨hr, _, hi.mpr ⟨.inr (.inr (by cases hf; rfl)), rfl, rfl⟩⟩

-- The url of a second endpoint leads nowhere, and a stream of the other direction is let pass.
theorem out_of_force :
    let services := [Demo.service "A" [("Count", "count")]]
    let first : Endpoint := ⟨"A.Count", "/one", false, true⟩
    let second : Endpoint := ⟨"A.Count", "/two", false, true⟩
    let other : Endpoint := ⟨"A.Count", "/one", true, false⟩
    let r := (empty .empty).registerWith services [first, second]
    let r' := (empty .empty).registerWith services [other]
    (r.result = .ok 1 ∧ ¬ ∃ x, second.InForce r.directory x) ∧
      (r'.result = .ok 1 ∧ ¬ ∃ x, other.InForce r'.directory x) := by
  intro services first second other r r'
  refine ⟨⟨rfl, ?url⟩, rfl, ?streams⟩
  case url =>
    rintro ⟨x, -, hu, -⟩
    have hk : (r.directory.get? second.url).map Descriptor.kind = none := by decide +kernel
    rw [hu (by decide)] at hk
    cases hk
  case streams =>
    rintro ⟨x, hx, -, hc, -⟩
    have hk : (r'.directory.get? other.method).map Descriptor.kind = some .serverStream := by
      decide +kernel
    rw [hx] at hk
    cases hc.trans (congrArg Kind.clientStreams (Option.some.inj hk))

end Directory
end CallFabric.Service
