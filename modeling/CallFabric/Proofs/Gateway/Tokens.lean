import CallFabric.Config.Validation
import CallFabric.Gateway.Admission
import CallFabric.Proofs.Metadata.Passage
import CallFabric.Proofs.Text.Case

namespace CallFabric

namespace Headers

variable {fields : List (String × Bytes)} {name other s : String} {value : Bytes}

theorem isName_lower (s : String) : isName (Text.lower s) = isName s := by
  simp [isName, Text.lower, Function.comp_def, Text.isTokenChar_lowerChar]

-- The first value that is sent under a name, however it is spelled each time. What HTTP does not
-- allow is not sent.
def sent? (fields : List (String × Bytes)) (name : String) : Option Bytes :=
  (fields.find? fun f =>
    isName f.1 && f.2.all isValueOctet && Text.lower f.1 = Text.lower name).map Prod.snd

theorem sent?_cons (f : String × Bytes) (fields : List (String × Bytes)) (name : String) :
    sent? (f :: fields) name =
      if isName f.1 && f.2.all isValueOctet && Text.lower f.1 = Text.lower name then some f.2
      else sent? fields name := by
  rw [sent?, List.find?_cons]
  split <;> simp_all [sent?]

theorem sent?_cons_self (hn : isName name) (ho : Text.lower other = Text.lower name)
    (hv : value.all isVisible) : sent? ((other, value) :: fields) name = some value := by
  have hi : isName other := by rw [← isName_lower, ho, isName_lower, hn]
  rw [sent?_cons, if_pos (by simp [hi, ho, all_isValueOctet hv])]

theorem first?_append (hs more : Headers) (name : String) :
    first? (hs ++ more) name = (hs.first? name).or (more.first? name) := by
  rw [first?, List.find?_append, Option.map_or]
  rfl

theorem first?_add (hs : Headers) (name other : String) (value : Bytes) :
    (hs.add other value).first? (Text.lower name) = (hs.first? (Text.lower name)).or
      (if isName other && value.all isValueOctet && Text.lower other = Text.lower name then
        some value else none) := by
  by_cases hf : isName other && value.all isValueOctet
  case pos =>
    rw [add, if_pos hf, first?_append, hf, Bool.true_and]
    congr 1
    by_cases ho : Text.lower other = Text.lower name <;> simp [first?, ho]
  case neg => simp [add, hf]

theorem first?_ofPairs (fields : List (String × Bytes)) (name : String) :
    (ofPairs fields).first? (Text.lower name) = sent? fields name := by
  suffices h : ∀ hs : Headers, (fields.foldl (fun hs f => hs.add f.1 f.2) hs).first?
      (Text.lower name) = (hs.first? (Text.lower name)).or (sent? fields name) from h []
  induction fields
  case nil => simp [sent?]
  case cons f fields hi =>
    intro hs
    rw [List.foldl_cons, hi, first?_add, Option.or_assoc, sent?_cons]
    split <;> rfl

theorem visible?_eq_some_iff :
    visible? value = some s ↔ value = Bytes.ofText s ∧ (Bytes.ofText s).all isVisible := by
  constructor
  case mp =>
    intro h
    rw [visible?_eq] at h
    split at h
    case isTrue hv =>
      obtain rfl := Option.some.inj h
      rw [ofText_charOf hv]
      exact ⟨rfl, hv⟩
    case isFalse => cases h
  case mpr =>
    rintro ⟨rfl, hv⟩
    rw [visible?_ofText, if_pos hv]

theorem text?_ofPairs : (ofPairs fields).text? (Text.lower name) = some s ↔
    sent? fields name = some (Bytes.ofText s) ∧ (Bytes.ofText s).all isVisible := by
  rw [text?, first?_ofPairs, Option.bind_eq_some_iff]
  simp only [visible?_eq_some_iff]
  constructor
  case mp =>
    rintro ⟨_, hs, rfl, hv⟩
    exact ⟨hs, hv⟩
  case mpr => exact fun h => ⟨_, h.1, rfl, h.2⟩

end Headers

namespace Gateway

variable {c : Config} {a : AuthConfig} {fields : List (String × Bytes)}

theorem TokenCheck.check_eq_ok_iff {t : TokenCheck} {hs : Headers} : t.check hs = .ok () ↔
    ∃ s, hs.text? t.header = some s ∧ Text.trim s ≠ "" ∧ Text.trim s ∈ t.tokens := by
  cases ht : hs.text? t.header
  case none => simp [check, ht]
  case some s =>
    simp only [check, ht, Option.map_some, Option.getD_some]
    split <;> simp_all

-- What becomes of a request with these fields.
def verdictOn (a : AuthConfig) (fields : List (String × Bytes)) : Except TokenCheck.Refusal Unit :=
  (TokenCheck.ofConfig a.header a.tokens).check (.ofPairs fields)

theorem verdictOn_eq_ok_iff : verdictOn a fields = .ok () ↔
    ∃ s, Headers.sent? fields a.header = some (Bytes.ofText s) ∧
      (Bytes.ofText s).all Headers.isVisible ∧ Text.trim s ≠ "" ∧ Text.trim s ∈ a.tokens := by
  rw [verdictOn, TokenCheck.check_eq_ok_iff]
  exact exists_congr fun s => (and_congr_left' Headers.text?_ofPairs).trans and_assoc

-- Settings that are accepted, with a header and tokens that a request can have.
structure Guards (c : Config) (a : AuthConfig) : Prop where
  accepted : c.errors = []
  settings : c.gateway.auth = some a
  header   : Headers.isName a.header
  tokens   : ∀ t ∈ a.tokens, (Bytes.ofText t).all Headers.isVisible

theorem Guards.passes {t : String} (hg : Guards c a) (ht : t ∈ a.tokens) (hn : t ≠ "")
    (hb : Text.trim t = t) (hs : Headers.sent? fields a.header = some (Bytes.ofText t)) :
    verdictOn a fields = .ok () :=
  verdictOn_eq_ok_iff.mpr ⟨t, hs, hg.tokens t ht, hb.symm ▸ hn, hb.symm ▸ ht⟩

-- A token that is listed, is not empty and has no blank at either end is enough: a request passes
-- if it is the first value of the header, in whatever spelling and whatever comes after. And a
-- request that passes has a listed token there, with or without blanks around it.
theorem tokens_accepted (hg : Guards c a) (fields : List (String × Bytes)) :
    (∀ t ∈ a.tokens, t ≠ "" → Text.trim t = t →
      (Headers.sent? fields a.header = some (Bytes.ofText t) → verdictOn a fields = .ok ()) ∧
      ∀ name, Text.lower name = Text.lower a.header →
        verdictOn a ((name, Bytes.ofText t) :: fields) = .ok ()) ∧
    (verdictOn a fields = .ok () → ∃ t ∈ a.tokens, ∃ s,
      Headers.sent? fields a.header = some (Bytes.ofText s) ∧ Text.trim s = t) := by
  refine ⟨fun t ht hn hb => ⟨hg.passes ht hn hb, fun name hl => ?_⟩, fun h => ?_⟩
  case refine_1 =>
    exact hg.passes ht hn hb (Headers.sent?_cons_self hg.header hl (hg.tokens t ht))
  case refine_2 =>
    obtain ⟨s, hs, -, -, hm⟩ := verdictOn_eq_ok_iff.mp h
    exact ⟨_, hm, s, hs, rfl⟩

-- Capitals in the name of the header and another value after the token.
theorem tokens_accepted_first :
    let a : AuthConfig := { tokens := ["good"] }
    Guards { gateway := { auth := some a } } a ∧
      verdictOn a [("AuthToken", Bytes.ofText "good"), ("authtoken", Bytes.ofText "bad")] =
        .ok () := by
  intro a
  have hg : Guards { gateway := { auth := some a } } a :=
    ⟨by decide +kernel, rfl, by decide, by decide +kernel⟩
  obtain ⟨h, -⟩ := tokens_accepted hg [("authtoken", Bytes.ofText "bad")]
  exact ⟨hg, (h "good" (.head _) (by decide) (by decide)).2 "AuthToken" (by decide)⟩

-- An empty token is as good as none, and one with a blank in front is never what is presented.
theorem listed_refused :
    let a : AuthConfig := { tokens := ["", " a"] }
    Guards { gateway := { auth := some a } } a ∧
      (∀ t ∈ a.tokens, Headers.sent? [("authtoken", Bytes.ofText t)] a.header =
        some (Bytes.ofText t)) ∧
      verdictOn a [("authtoken", Bytes.ofText "")] = .error (.missing "authtoken") ∧
      verdictOn a [("authtoken", Bytes.ofText " a")] = .error .unknown :=
  ⟨⟨by decide +kernel, rfl, by decide, by decide +kernel⟩, by decide +kernel, rfl, rfl⟩

end Gateway
end CallFabric
