import CallFabric.Gateway.Payload
import CallFabric.Proofs.Metadata.Passage

namespace CallFabric

namespace ContentType

-- Parameters stay as they are, their values may tell cases apart.
def lowered (contentType : String) : String :=
  .ofList (Text.mapUntil Text.lowerChar ';' contentType.toList)

theorem mediaType_lowered (s : String) : mediaType (lowered s) = Text.lower (mediaType s) := by
  have hc (c : Char) : decide (Text.lowerChar c ≠ ';') = decide (c ≠ ';') :=
    decide_eq_decide.mpr (not_congr (Text.lowerChar_eq_iff (by decide) c))
  rw [mediaType, lowered, String.toList_ofList, Text.takeWhile_mapUntil hc (by decide), Text.lower,
    mediaType, String.toList_ofList]

theorem normalize_lowered (s : String) : normalize (lowered s) = normalize s := by
  rw [normalize, mediaType_lowered, Text.trim_lower, Text.lower_lower, normalize]

theorem bodyKind?_lowered (s : String) : bodyKind? (lowered s) = bodyKind? s := by
  rw [bodyKind?, normalize_lowered, bodyKind?]

end ContentType

-- Type and subtype are read in lower case, and neither the slash nor the semicolon is a letter.
theorem MediaType.ofText?_lowered (s : String) : ofText? (ContentType.lowered s) = ofText? s := by
  have ht (cs : List Char) : (Text.mapUntil Text.lowerChar ';' cs).takeWhile Headers.isTokenChar =
      (cs.takeWhile Headers.isTokenChar).map Text.lowerChar :=
    Text.takeWhile_mapUntil Text.isTokenChar_lowerChar (by decide) cs
  have hd (cs : List Char) : (Text.mapUntil Text.lowerChar ';' cs).dropWhile Headers.isTokenChar =
      Text.mapUntil Text.lowerChar ';' (cs.dropWhile Headers.isTokenChar) :=
    Text.dropWhile_mapUntil Text.isTokenChar_lowerChar (by decide) cs
  have hl (cs : List Char) :
      Text.lower (.ofList (cs.map Text.lowerChar)) = Text.lower (.ofList cs) := by
    simpa [Text.lower] using Text.lower_lower (.ofList cs)
  simp only [ofText?, ContentType.lowered, String.toList_ofList, ht, hd, hl, List.isEmpty_map]
  cases s.toList.dropWhile Headers.isTokenChar
  case nil => rfl
  case cons c rest =>
    by_cases hs : c = ';'
    case pos => rw [hs]; rfl
    case neg =>
    rw [Text.mapUntil, if_neg hs]
    by_cases hm : c = '/'
    case neg => simp [Text.lowerChar_eq_iff (d := '/') (by decide), hm]
    case pos =>
      rw [hm, (Text.lowerChar_eq_iff (by decide) '/').mpr rfl]
      simp only [ht, hd, hl, List.isEmpty_map]
      cases rest.dropWhile Headers.isTokenChar
      case nil => rfl
      case cons c rest =>
        by_cases hs : c = ';'
        case pos => rw [hs]; rfl
        case neg => simp [Text.mapUntil, Text.lowerChar_eq_iff (d := ';') (by decide), hs]

namespace Headers

def loweredValue (value : Bytes) : Bytes := Text.mapUntil Bytes.lowerOctet 0x3b value

-- Values are the same with their media types in lower case if they were so from the first semicolon
-- on, and in front of it but for case.
theorem loweredValue_eq_iff {v w : Bytes} : loweredValue v = loweredValue w ↔
    (v.takeWhile (· ≠ 0x3b)).map Bytes.lowerOctet =
      (w.takeWhile (· ≠ 0x3b)).map Bytes.lowerOctet ∧
    v.dropWhile (· ≠ 0x3b) = w.dropWhile (· ≠ 0x3b) :=
  Text.mapUntil_eq_iff Bytes.lowerOctet_eq_semicolon

theorem visible?_loweredValue (value : Bytes) :
    visible? (loweredValue value) = (visible? value).map ContentType.lowered := by
  rw [visible?_eq, visible?_eq, loweredValue, Text.all_mapUntil Bytes.isVisible_lowerOctet,
    Text.map_mapUntil Bytes.charOf_eq_semicolon Bytes.charOf_lowerOctet]
  split
  · rw [Option.map_some, ContentType.lowered, String.toList_ofList]
  · rfl

def lowered (hs : Headers) : Headers :=
  hs.map fun p => if p.1 = "content-type" then (p.1, loweredValue p.2) else p

theorem text?_lowered (hs : Headers) :
    hs.lowered.text? "content-type" = (hs.text? "content-type").map ContentType.lowered := by
  have hf : hs.lowered.first? "content-type" = (hs.first? "content-type").map loweredValue := by
    induction hs
    case nil          => rfl
    case cons p hs hi =>
      by_cases hp : p.1 = "content-type"
      case pos => simp [lowered, first?, hp]
      case neg => simpa [lowered, first?, hp] using hi
  rw [text?, text?, hf]
  cases hs.first? "content-type"
  case none       => rfl
  case some value => exact visible?_loweredValue value

end Headers

namespace Gateway

open ContentType (BodyKind)

namespace BodySource

def lowered (r : BodySource) : BodySource := { r with headers := r.headers.lowered }

-- The same requests but for the case of the letters in a media type.
def Respelled (r q : BodySource) : Prop := r.lowered = q.lowered

@[simp] theorem method_lowered (r : BodySource) : r.lowered.method = r.method := rfl
@[simp] theorem body_lowered (r : BodySource) : r.lowered.body = r.body := rfl

instance (r q : BodySource) : Decidable (r.Respelled q) := inferInstanceAs (Decidable (_ = _))

def kind? (r : BodySource) : Option BodyKind :=
  ContentType.bodyKind? ((r.headers.text? "content-type").getD "")

-- Whether the content type begins as a form's does, in lower case.
def namesForm (r : BodySource) : Bool :=
  (r.headers.text? "content-type").any fun t => Text.startsWith t ContentType.form

theorem kind?_lowered (r : BodySource) : r.lowered.kind? = r.kind? := by
  rw [kind?, lowered, Headers.text?_lowered, kind?]
  cases r.headers.text? "content-type"
  case none   => rfl
  case some t => exact ContentType.bodyKind?_lowered t

theorem boundary?_lowered (r : BodySource) :
    Payload.boundary? r.lowered.headers = Payload.boundary? r.headers := by
  rw [Payload.boundary?, lowered, Headers.text?_lowered, Payload.boundary?]
  cases r.headers.text? "content-type"
  case none   => rfl
  case some t => simp [MediaType.ofText?_lowered]

end BodySource

namespace Payload

open BodySource (Respelled)

variable {r q : BodySource}

-- The header is looked at for the kind, and by forms and multipart bodies once more.
theorem extract_eq (limit formLimit : Nat) (r : BodySource) :
    extract limit formLimit r =
      match r.kind? with
      | none => .error (.unsupported ((r.headers.text? "content-type").getD ""))
      | some .form =>
        (formText formLimit r).map fun text => (.form, (ofPairs (Form.pairs text)).text)
      | some .multipart =>
        (multipartObject formLimit r).map fun object => (.multipart, object.text)
      | some kind => if limit < r.body.length then .error .tooLarge else .ok (kind, r.body) := by
  unfold extract
  extract_lets contentType
  have hk : ContentType.bodyKind? contentType = r.kind? := rfl
  generalize ContentType.bodyKind? contentType = found, r.kind? = kind at hk ⊢
  subst hk
  match found with
  | none            => rfl
  | some .form      => rfl
  | some .json      => rfl
  | some .multipart => rfl
  | some .binary    => rfl

-- What is read of the header besides the kind is the boundary of a multipart body.
theorem extract_lowered (hk : r.kind? ≠ some .form) (limit formLimit : Nat) :
    (extract limit formLimit r.lowered).toOption = (extract limit formLimit r).toOption := by
  have hm : multipartObject formLimit r.lowered = multipartObject formLimit r := by
    rw [multipartObject, r.boundary?_lowered, multipartObject]
    rfl
  rw [extract_eq, extract_eq, r.kind?_lowered, hm]
  generalize r.kind? = kind at hk
  match kind with
  | none            => rfl
  | some .form      => exact absurd rfl hk
  | some .json      => rfl
  | some .multipart => rfl
  | some .binary    => rfl

theorem formText_eq (hp : r.method = "POST") (limit : Nat) :
    formText limit r =
      if r.namesForm ∧ r.body.length ≤ limit then .ok r.body else .error .noForm := by
  have hg : r.method ≠ "GET" := by rw [hp]; decide
  have hn : ((r.headers.text? "content-type").any fun t => Text.startsWith t ContentType.form) =
    r.namesForm := rfl
  rw [formText, if_neg hg, hn]
  cases r.namesForm
  case false => rfl
  case true  =>
    rw [if_neg (by decide)]
    by_cases hl : r.body.length ≤ limit
    case pos => rw [if_neg (Nat.not_lt.mpr hl), if_pos ⟨rfl, hl⟩]
    case neg => rw [if_pos (Nat.lt_of_not_le hl), if_neg fun h => hl h.2]

theorem extract_form (hk : r.kind? = some .form) (hp : r.method = "POST") (limit formLimit : Nat) :
    (extract limit formLimit r).toOption =
      if r.namesForm ∧ r.body.length ≤ formLimit
      then some (.form, (ofPairs (Form.pairs r.body)).text) else none := by
  rw [extract_eq, hk, formText_eq hp]
  by_cases hf : r.namesForm ∧ r.body.length ≤ formLimit
  case pos => rw [if_pos hf, if_pos hf]; rfl
  case neg => rw [if_neg hf, if_neg hf]; rfl

-- Two requests that differ in the case of media types only have the same payload of the same kind,
-- or both have none, unless the body is a form that is within its limit and just one of their
-- content types begins in lower case.
theorem extract_respelled_iff (h : Respelled r q) (hp : r.method = "POST") (limit formLimit : Nat) :
    (extract limit formLimit r).toOption = (extract limit formLimit q).toOption ↔
      ¬ (r.kind? = some .form ∧ r.body.length ≤ formLimit ∧ r.namesForm ≠ q.namesForm) := by
  have hk : q.kind? = r.kind? := by rw [← q.kind?_lowered, ← h, r.kind?_lowered]
  by_cases hf : r.kind? = some .form
  case neg =>
    have hq : q.kind? ≠ some .form := fun he => hf (hk.symm.trans he)
    have he : (extract limit formLimit r).toOption = (extract limit formLimit q).toOption := by
      rw [← extract_lowered hf, ← extract_lowered hq, h]
    exact iff_of_true he fun hn => hf hn.1
  case pos =>
    have hm : q.method = "POST" := by rw [← q.method_lowered, ← h, r.method_lowered, hp]
    have hb : q.body = r.body := by rw [← q.body_lowered, ← h, r.body_lowered]
    rw [extract_form hf hp, extract_form (hk.trans hf) hm, hb]
    by_cases hl : r.body.length ≤ formLimit
    case neg => simp [hl]
    case pos => cases r.namesForm <;> cases q.namesForm <;> simp [hf, hl]

-- A request that posts a body under a content type.
def posted (contentType body : String) : BodySource :=
  ⟨"POST", none, [("content-type", Bytes.ofText contentType)], Bytes.ofText body⟩

def onePart : String := "--XX\r\ncontent-disposition: form-data; name=a\r\n\r\n1\r\n--XX--"

theorem extract_respelled_multipart :
    let r := posted "Multipart/FORM-Data; boundary=XX" onePart
    let q := posted "multipart/form-data; boundary=XX" onePart
    Respelled r q ∧ r.method = "POST" ∧
      (extract 64 64 r).toOption = (extract 64 64 q).toOption ∧
      (extract 64 64 q).toOption = some (.multipart, Bytes.ofText "\x7b\"a\":\"1\"\x7d") := by
  intro r q
  have hr : Respelled r q := by decide +kernel
  have he : (extract 64 64 r).toOption = (extract 64 64 q).toOption :=
    (extract_respelled_iff hr rfl 64 64).mpr fun hn => absurd hn.1 (by decide +kernel)
  exact ⟨hr, rfl, he, by decide +kernel⟩

-- A capital in the name of a form is enough for it to be refused.
theorem form_refused_for_capital :
    let r := posted "Application/x-www-form-urlencoded" "a=1"
    let q := posted "application/x-www-form-urlencoded" "a=1"
    Respelled r q ∧ (extract 64 64 r).toOption = none ∧
      (extract 64 64 q).toOption = some (.form, Bytes.ofText "\x7b\"a\":\"1\"\x7d") := by
  decide +kernel

end Payload
end Gateway
end CallFabric
