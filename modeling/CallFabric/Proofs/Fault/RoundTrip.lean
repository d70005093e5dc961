import CallFabric.Fault.Handler
import CallFabric.Fault.Status
import CallFabric.Http.Caller
import CallFabric.Proofs.Json.Rendering
import CallFabric.Proofs.Shape.Reading

namespace CallFabric

namespace Fault

variable (f : Fault)

def toDatum : Datum :=
  .record [("code", .int f.code.toInt), ("status", .int f.status.toNat), ("msg", .text f.message)]

theorem form_toDatum : f.toDatum.form = f.toJson := rfl

theorem settled_toDatum : f.toDatum.settled = f.toDatum := rfl

theorem ofDatum_toDatum : ofDatum f.toDatum = f := by
  have hc : f.toDatum.intField "code" = f.code.toInt := rfl
  have hs : f.toDatum.intField "status" = f.status.toNat := rfl
  have hm : f.toDatum.textField "msg" = f.message := rfl
  rw [ofDatum, hc, hs, hm, Int32.ofInt_toInt, Int.toNat_natCast, UInt16.ofNat_toNat]

theorem plain_toDatum : f.toDatum.Plain := by
  have hl := f.code.le_toInt
  have hg := f.code.toInt_lt
  have hs := f.status.toNat_lt
  refine .record fun e he => ?_
  simp only [List.mem_cons, List.not_mem_nil, or_false] at he
  obtain rfl | rfl | rfl := he
  · exact .int (by omega) (by omega)
  · exact .int (by omega) (by omega)
  · exact .text f.message

theorem has_toDatum : shape.Has f.toDatum := by
  have hl := f.code.le_toInt
  have hg := f.code.toInt_lt
  have hs := f.status.toNat_lt
  refine .record (by decide) rfl fun k s d hk hd => ?_
  simp only [List.mem_cons, List.not_mem_nil, or_false, Prod.mk.injEq] at hk hd
  obtain ⟨rfl, rfl⟩ | ⟨rfl, rfl⟩ | ⟨rfl, rfl⟩ := hk <;> simp at hd <;> subst hd
  · exact .int (by omega) (by omega)
  · exact .int (by omega) (by omega)
  · exact .text f.message

theorem plain_toJson : f.toJson.Plain := f.plain_toDatum.form

theorem depth_toJson : f.toJson.depth = 1 := rfl

theorem fromOpening?_cons (b : UInt8) (bs : Bytes) :
    fromOpening? (b :: bs) =
      if b = 0x7b ∧ bs.head? = some 0x22 then some (b :: bs) else fromOpening? bs := by
  have hp : opening.isPrefixOf (b :: bs) = true ↔ b = 0x7b ∧ bs.head? = some 0x22 := by
    rw [List.isPrefixOf_iff_prefix, opening, List.cons_prefix_cons]
    cases bs <;> simp [List.cons_prefix_cons, @eq_comm UInt8 _ b, @eq_comm UInt8 0x22]
  rw [fromOpening?]
  simp only [hp]

-- Behind what opens no object itself, the first place where one opens is the front of the text,
-- whatever the message holds.
theorem fromOpening?_append {before : Bytes} (h : fromOpening? before = none) (after : Bytes) :
    fromOpening? (before ++ (f.text ++ after)) = some (f.text ++ after) := by
  obtain ⟨bs, hb⟩ : ∃ bs, f.text ++ after = 0x7b :: 0x22 :: bs := ⟨_, rfl⟩
  rw [hb]
  induction before
  case nil => rw [List.nil_append, fromOpening?_cons, if_pos ⟨rfl, rfl⟩]
  case cons b before hi =>
    rw [fromOpening?_cons] at h
    split at h
    case isTrue => cases h
    case isFalse hn =>
      have hn : ¬ (b = 0x7b ∧ (before ++ 0x7b :: 0x22 :: bs).head? = some 0x22) := by
        cases before
        case nil  => simp
        case cons => exact hn
      rw [List.cons_append, fromOpening?_cons, if_neg hn, hi h]

theorem ofWritten?_written (depth : Nat) (h : 1 ≤ depth) :
    shape.ofWritten? depth f.toJson.written = some f.toDatum :=
  f.has_toDatum.ofWritten?_form f.plain_toDatum depth h

theorem embedded?_append {before : Bytes} (h : fromOpening? before = none) (after : Bytes) :
    embedded? (before ++ (f.text ++ after)) = some f := by
  have hf : Json.Written.first? (f.text ++ after) = some f.toJson.written :=
    Json.first?_text_obj f.plain_toJson after
  have hw := f.ofWritten?_written Json.Written.depthLimit (by decide)
  rw [embedded?, f.fromOpening?_append h]
  simp [hf, hw, ofDatum_toDatum]

theorem ofText_render : Bytes.ofText f.render = f.text :=
  Json.ofText_render f.plain_toJson

theorem parse_append {before : String} (h : fromOpening? (Bytes.ofText before) = none)
    (after : String) : parse (before ++ f.render ++ after) = f := by
  rw [parse, Bytes.ofText_append, Bytes.ofText_append, ofText_render, List.append_assoc,
    f.embedded?_append h, Option.getD_some]

theorem parse_render : parse f.render = f := by
  have hp : parse ("" ++ f.render ++ "") = f := f.parse_append rfl ""
  simpa using hp

theorem ofJson?_sorted : ofJson? f.toJson.sorted = some f := by
  have hj := f.has_toDatum.ofJson?_form f.plain_toDatum
  rw [ofJson?, ← form_toDatum, hj, settled_toDatum, Option.map_some, ofDatum_toDatum]

end Fault

theorem Status.toFault_ofFault (f : Fault) : (Status.ofFault f).toFault = f := by
  have ho : (Fault.fromOpening? (Bytes.ofText f.render)).isSome := by
    have hf : Fault.fromOpening? ([] ++ (f.text ++ [])) = some (f.text ++ []) :=
      f.fromOpening?_append rfl []
    rw [List.append_nil, List.nil_append] at hf
    rw [f.ofText_render, hf, Option.isSome_some]
  rw [Status.ofFault, Status.toFault, if_pos ho, f.parse_render]

namespace Caller

open Text (trim trimChars trimEnd isBlank)

theorem charsetOf_ofFault (f : Fault) : charsetOf (.ofFault f) = .utf8 := by
  have hm : MediaType.ofText? Reply.jsonUtf8 =
      some ⟨"application", "json", [("charset", "utf-8")]⟩ := by decide
  have hc : Charset.ofLabel? "utf-8" = some .utf8 := by decide
  simp [charsetOf, Reply.ofFault, hm, MediaType.parameter?, hc]

theorem trim_ne_empty {s : String} {c : Char} {cs : List Char} (hs : s.toList = c :: cs)
    (hb : isBlank c = false) : trim s ≠ "" := by
  intro he
  have hn : trimChars s.toList = [] := by simpa [trim] using he
  rw [hs, trimChars, List.dropWhile_cons_of_neg (by simp [hb])] at hn
  simp [trimEnd, List.dropWhile_append, hb] at hn
  split at hn <;> simp at hn

-- The line feed behind the text belongs to no value.
theorem ofReply?_ofFault (f : Fault) :
    Response.ofReply? (.ofFault f) = some ⟨Reply.httpStatus f.status, f.toJson.sorted⟩ := by
  have hb : Bytes.ofText (f.render ++ "\n") = (Reply.ofFault f).body := by
    rw [Bytes.ofText_append, f.ofText_render]
    rfl
  have hl : (Reply.ofFault f).body.lossy = f.render ++ "\n" := by
    rw [← hb, Bytes.lossy_ofText]
  obtain ⟨bs, hf⟩ : ∃ bs, (Reply.ofFault f).body = 0x7b :: bs := ⟨_, rfl⟩
  have hd : (charsetOf (.ofFault f)).decode (Reply.ofFault f).body = f.render ++ "\n" := by
    rw [charsetOf_ofFault, ← hl, hf]
    rfl
  have hc : (f.render ++ "\n").toList = '\x7b' :: Utf8.chars bs := by
    rw [← hl, hf, Bytes.lossy, String.toList_ofList]
    exact Utf8.chars_encode '\x7b' bs
  have hj : Json.ofText? (Reply.ofFault f).body = some f.toJson.sorted :=
    Json.ofText?_text_obj f.plain_toJson (f.depth_toJson ▸ by decide) (by decide)
  rw [Response.ofReply?, hd, hb, hj]
  exact if_neg (trim_ne_empty hc (by decide))

theorem fault?_ofFault (f : Fault) (status : Nat) :
    Response.fault? ⟨status, f.toJson.sorted⟩ = some f := by
  have hm : f.toJson.sorted.member? "status" = some (.int f.status.toNat) := rfl
  simp [Response.fault?, hm, f.ofJson?_sorted]

end Caller

namespace HandlerError

-- What a handler fails with reaches every caller as one fault, whatever its code, its status and
-- its message are: who called gets it back from the status of the call, and who asked a gateway
-- from the status and the body of the reply.
theorem fault_reaches_caller (e : HandlerError) :
    (Status.ofFault e.toFault).toFault = e.toFault ∧
    ∃ r, Caller.Response.ofReply? (.ofFault e.toFault) = some r ∧ r.fault? = some e.toFault :=
  ⟨Status.toFault_ofFault _, _, Caller.ofReply?_ofFault _, Caller.fault?_ofFault _ _⟩

end HandlerError
end CallFabric
