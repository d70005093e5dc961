import CallFabric.Codec
import CallFabric.Proofs.MessagePack.Reading
import CallFabric.Proofs.Shape.Covering
import CallFabric.Proofs.Shape.Items

namespace CallFabric

namespace Codec

-- Containers may be nested as deep as the format is read, and the lengths fit where it has any.
def Holds (c : Codec) (d : Datum) : Prop :=
  match c with
  | .json => d.form.depth ≤ Json.Written.depthLimit
  | .messagePack => d.toItem.Fits ∧ d.toItem.depth ≤ MessagePack.depthLimit

-- The payload is taken for an empty one.
def LooksEmpty (c : Codec) (d : Datum) : Prop :=
  c = .messagePack ∧ ∃ n ∈ MessagePack.blankNumbers, d.form = .int n

variable {c : Codec} {s : Shape} {d default : Datum} {payload : Bytes}

theorem exists_encode (hp : d.Plain) (c : Codec) : ∃ payload, c.encode d = .ok payload := by
  cases c
  case json        => exact ⟨d.form.text, by rw [encode, show d.toJson? = _ from hp.formed]⟩
  case messagePack => exact ⟨d.toItem.octets, rfl⟩

theorem encode_json (hp : d.Plain) : json.encode d = .ok d.form.text := by
  rw [encode, show d.toJson? = _ from hp.formed]

theorem decode_encode (h : s.Has d) (hp : d.Plain) (hc : c.Holds d)
    (he : c.encode d = .ok payload) : c.decode s payload = .ok d.settled := by
  cases c
  case json =>
    obtain rfl := Except.ok.inj ((encode_json hp).symm.trans he)
    simp [decode, Shape.ofText?, Json.writtenOfText?_text hp.form, h.ofWritten?_form hp _ hc]
  case messagePack =>
    obtain rfl := Except.ok.inj he
    have hi := h.ofItem?_form hp
    rw [← hp.toItem_eq] at hi
    simp [decode, Shape.ofOctets?, MessagePack.ofOctets?_octets hc.1 hc.2, hi]

theorem decodeValue_encode (hp : d.Plain) (hc : c.Holds d) (he : c.encode d = .ok payload) :
    c.decodeValue payload = .ok d.form.sorted := by
  cases c
  case json =>
    obtain rfl := Except.ok.inj ((encode_json hp).symm.trans he)
    simp [decodeValue, Json.ofText?_text hp.form hc]
  case messagePack =>
    obtain rfl := Except.ok.inj he
    have hv := Datum.toJson?_itemOfJson d.form hp.form
    rw [← hp.toItem_eq] at hv
    simp [decodeValue, MessagePack.ofOctets?_octets hc.1 hc.2, hv]

theorem all_isBlank_iff (hp : d.Plain) (hc : c.Holds d) (he : c.encode d = .ok payload) :
    payload.all Bytes.isBlank ↔ c.LooksEmpty d := by
  cases c
  case json =>
    obtain rfl := Except.ok.inj ((encode_json hp).symm.trans he)
    obtain ⟨b, bs, ht, hb⟩ := Json.text_cons d.form hp.form
    simp [ht, hb.blank, LooksEmpty]
  case messagePack =>
    obtain rfl := Except.ok.inj he
    rw [MessagePack.all_isBlank_octets_iff hc.1]
    simp only [hp.toItem_eq, Datum.itemOfJson_eq_unsigned, LooksEmpty, true_and]

-- Over the default of its shape a value is read back exactly if nothing of the default is left.
theorem ofJson?_overlay_iff (h : s.Has d) (hp : d.Plain) (hd : s.Has default) :
    s.ofJson? (default.form.sorted.overlay d.form.sorted) = some d ↔
      d.settled = d ∧ d.form.sorted.Covers default.form.sorted := by
  have ho := Json.overlay_eq_iff d.form.ordered_sorted default.form.ordered_sorted
  constructor
  case mp =>
    intro hr
    have hc := h.coversWhenRead hp _ hd hr
    rw [ho.mpr hc, h.ofJson?_form hp] at hr
    exact ⟨Option.some.inj hr, hc⟩
  case mpr =>
    rintro ⟨hs, hc⟩
    rw [ho.mpr hc, h.ofJson?_form hp, hs]

theorem decodeOver_of_blank (hb : payload.all Bytes.isBlank) :
    c.decodeOver s default payload = .ok default := by
  rw [decodeOver, if_pos hb]

theorem decodeOver_of_not_blank {v : Json} (hb : ¬ payload.all Bytes.isBlank)
    (hv : c.decodeValue payload = .ok v) (hd : default.Formed) :
    c.decodeOver s default payload = .ok d ↔
      s.ofJson? (default.form.sorted.overlay v) = some d := by
  rw [decodeOver, if_neg hb, hv, show default.toJson? = _ from hd]
  cases hr : s.ofJson? (default.form.sorted.overlay v) <;> simp [hr]

-- A value of a shape comes back from its octets: read by itself, if none of its present options is
-- written as an absent one; read over a default, if it also covers the default, and if its octets
-- are not those of a blank.
theorem decodeOver_encode_iff (c : Codec) (h : s.Has d) (hp : d.Plain) (hc : c.Holds d)
    (hd : s.Has default) : ∃ payload, c.encode d = .ok payload ∧
      (c.decode s payload = .ok d ↔ d.settled = d) ∧
      (c.LooksEmpty d → (c.decodeOver s default payload = .ok d ↔ default = d)) ∧
      (¬ c.LooksEmpty d → (c.decodeOver s default payload = .ok d ↔
        d.settled = d ∧ d.form.sorted.Covers default.form.sorted)) := by
  obtain ⟨payload, he⟩ := exists_encode hp c
  have hb := all_isBlank_iff hp hc he
  refine ⟨payload, he, ?decode, fun hl => ?blank, fun hl => ?read⟩
  case decode => rw [decode_encode h hp hc he, Except.ok.injEq]
  case blank  => rw [decodeOver_of_blank (hb.mpr hl), Except.ok.injEq]
  case read   =>
    rw [decodeOver_of_not_blank (mt hb.mp hl) (decodeValue_encode hp hc he) hd.formed]
    exact ofJson?_overlay_iff h hp hd

-- Where no shape of a part leaves its members open, the default does not matter.
theorem decodeOver_encode_of_rigid (hs : s.Rigid) (h : s.Has d) (hp : d.Plain) (hc : c.Holds d)
    (hd : s.Has default) (hl : ¬ c.LooksEmpty d) (he : c.encode d = .ok payload) :
    c.decodeOver s default payload = .ok d ↔ d.settled = d := by
  have hb := all_isBlank_iff hp hc he
  rw [decodeOver_of_not_blank (mt hb.mp hl) (decodeValue_encode hp hc he) hd.formed,
    ofJson?_overlay_iff h hp hd]
  exact and_iff_left (hs.covers h hp hd)

theorem map_read_over_map : ∃ payload,
    messagePack.encode (.map [("a", .int 1), ("b", .int 2)]) = .ok payload ∧
    messagePack.decodeOver (.map .i64) (.map [("a", .int 0)]) payload =
      .ok (.map [("a", .int 1), ("b", .int 2)]) := by
  have hi {i : Int} (h : -5 ≤ i ∧ i ≤ 5) : Shape.i64.Has (.int i) := .int (by omega) (by omega)
  have hd : (Shape.map .i64).Has (.map [("a", .int 0)]) :=
    .map (by decide) (by simp [hi])
  have h : (Shape.map .i64).Has (.map [("a", .int 1), ("b", .int 2)]) :=
    .map (by decide) (by simp [hi])
  have hp : (Datum.map [("a", .int 1), ("b", .int 2)]).Plain :=
    .map (by simp [Datum.Plain.int])
  have hc : messagePack.Holds (.map [("a", .int 1), ("b", .int 2)]) := by
    refine ⟨?_, by decide⟩
    simp only [Datum.toItem, Datum.toEntries, Datum.key, MessagePack.Item.ofInt]
    simp [MessagePack.Item.Fits, MessagePack.FitsEntries]
    decide
  obtain ⟨payload, he, -, -, hr⟩ := decodeOver_encode_iff .messagePack h hp hc hd
  refine ⟨payload, he, (hr ?number).mpr ⟨rfl, .members (fun k low hm => ?key) ?value⟩⟩
  case number =>
    rintro ⟨-, n, -, hn⟩
    cases hn
  case key =>
    obtain ⟨rfl, -⟩ := Prod.mk.inj (List.mem_singleton.mp hm)
    rfl
  case value =>
    intro k low up hm hg
    obtain ⟨rfl, -⟩ := Prod.mk.inj (List.mem_singleton.mp hm)
    obtain rfl := Option.some.inj (show some (Json.int 1) = some up from hg)
    exact .upper rfl

-- Ten is written as a line feed.
theorem number_lost_as_blank :
    Shape.i64.Has (.int 10) ∧ (Datum.int 10).Plain ∧ messagePack.Holds (.int 10) ∧
    messagePack.encode (.int 10) = .ok [0x0a] ∧
    messagePack.decode .i64 [0x0a] = .ok (.int 10) ∧
    messagePack.decodeOver .i64 (.int 0) [0x0a] = .ok (.int 0) :=
  ⟨.int (by decide) (by decide), .int (by decide) (by decide),
    ⟨show 10 < 0x10000000000000000 by decide, by decide⟩, rfl, rfl, rfl⟩

end Codec
end CallFabric
