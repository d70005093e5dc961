import Mathlib.Data.List.Induction
import CallFabric.Proofs.Gateway.Spelling
import CallFabric.Proofs.Http.Form
import CallFabric.Proofs.Json.Reading

namespace CallFabric.Gateway.Payload

open Multipart (Part)

def valuesOf (key : String) (pairs : List (String × String)) : List String :=
  (pairs.filter fun p => p.1 = key).map Prod.snd

-- Values in one text, where there are any.
def joined? : List String → Option Json
  | []     => none
  | values => some (joined values)

theorem collect_snoc (pairs : List (String × String)) (p : String × String) :
    collect (pairs ++ [p]) = (collect pairs).modify p.1 [] (· ++ [p.2]) :=
  List.foldl_append

theorem sorted_collect (pairs : List (String × String)) : (collect pairs).Sorted := by
  induction pairs using List.reverseRecOn
  case nil => exact List.Pairwise.nil
  case append_singleton pairs p hi =>
    rw [collect_snoc]
    exact hi.insert _ _

theorem get?_collect (pairs : List (String × String)) (key : String) :
    (collect pairs).get? key =
      if valuesOf key pairs = [] then none else some (valuesOf key pairs) := by
  induction pairs using List.reverseRecOn
  case nil => rfl
  case append_singleton pairs p hi =>
    -- The last pair joins the values of its key.
    have hv : valuesOf key (pairs ++ [p]) =
        valuesOf key pairs ++ if p.1 = key then [p.2] else [] := by
      by_cases hk : p.1 = key <;> simp [valuesOf, hk]
    rw [collect_snoc, Table.modify, Table.get?_insert, hv]
    by_cases hk : p.1 = key
    case neg => simp [hk, hi]
    case pos =>
      subst hk
      by_cases he : valuesOf p.1 pairs = [] <;> simp [hi, he]

theorem get?_joined (pairs : List (String × String)) (key : String) :
    ((collect pairs).mapValues joined).get? key = joined? (valuesOf key pairs) := by
  rw [Table.get?_mapValues, get?_collect]
  cases valuesOf key pairs <;> simp [joined?]

theorem kept_of_joined? {values : List String} {v : Json} (h : joined? values = some v) (n : Nat) :
    v.Kept n := by
  cases values
  case nil  => cases h
  case cons => exact Option.some.inj h ▸ .str _

theorem sorted_joined (pairs : List (String × String)) :
    ((collect pairs).mapValues joined).Sorted :=
  (sorted_collect pairs).mapValues joined

theorem kept_ofPairs (pairs : List (String × String)) : (ofPairs pairs).Kept 1 :=
  .obj_of_get? (sorted_joined pairs) fun key _ h =>
    kept_of_joined? ((get?_joined pairs key).symm.trans h) 0

-- A form that is posted becomes one object, as long as its body is within the limit. The pairs of
-- the form are those that its body says and no others. The object's keys are those of the pairs,
-- and under each stand all values of this key, joined by commas in the order of their pairs.
theorem extract_form_gathers {r : BodySource} (hp : r.method = "POST") (hk : r.kind? = some .form)
    (hn : r.namesForm) {formLimit : Nat} (hl : r.body.length ≤ formLimit) (limit : Nat) :
    ∃ payload pairs, ∃ object : Table Json,
      extract limit formLimit r = .ok (.form, payload) ∧
      (∀ ps, Form.Says r.body ps ↔ ps = pairs) ∧
      Json.ofText? payload = some (.obj object) ∧ object.Sorted ∧
      ∀ key, object.get? key = joined? (valuesOf key pairs) := by
  have hx : extract limit formLimit r = .ok (.form, (ofPairs (Form.pairs r.body)).text) := by
    rw [extract_eq, hk, formText_eq hp, if_pos ⟨hn, hl⟩]
    rfl
  exact ⟨_, Form.pairs r.body, _, hx, fun _ => Form.says_iff,
    (kept_ofPairs (Form.pairs r.body)).ofText?_text (by decide), sorted_joined _, get?_joined _⟩

-- One key in two spellings, escapes that are none or too short, an empty piece and one without an
-- equals sign, and an octet that is no text.
theorem extract_form_gathers_escaped :
    let r := posted "application/x-www-form-urlencoded" "a=1&%61=%zz&&b+c&a=%ff%4"
    r.method = "POST" ∧ r.kind? = some .form ∧ r.namesForm ∧ r.body.length ≤ 64 ∧
      (extract 64 64 r).toOption =
        some (.form, Bytes.ofText "\x7b\"a\":\"1,%zz,\uFFFD%4\",\"b c\":\"\"\x7d") ∧
      ∃ payload pairs, ∃ object : Table Json,
        extract 64 64 r = .ok (.form, payload) ∧
        (∀ ps, Form.Says r.body ps ↔ ps = pairs) ∧
        Json.ofText? payload = some (.obj object) ∧ object.Sorted ∧
        ∀ key, object.get? key = joined? (valuesOf key pairs) := by
  intro r
  have hk : r.kind? = some .form := by decide +kernel
  have hn : r.namesForm := by decide +kernel
  have hl : r.body.length ≤ 64 := by decide +kernel
  exact ⟨rfl, hk, hn, hl, by decide +kernel, extract_form_gathers rfl hk hn hl 64⟩

def textsOf (parts : List Part) (name : String) : List String :=
  parts.filterMap fun p =>
    if p.header.name = some name ∧ p.header.fileName = none then some p.text else none

-- The last file of a name: how it is called and what it holds.
def lastFile? (parts : List Part) (name : String) : Option (String × Bytes) :=
  parts.reverse.findSome? fun p =>
    if p.header.name = some name then p.header.fileName.map (·, p.content) else none

theorem valuesOf_texts (parts : List Part) (name : String) :
    valuesOf name (texts parts) = textsOf parts name := by
  induction parts
  case nil => rfl
  case cons p ps hi =>
    rcases p with ⟨⟨_ | n, _ | f, c⟩, bs⟩
    case some.none =>
      by_cases hn : n = name <;> simpa [texts, textsOf, valuesOf, hn] using hi
    all_goals simpa [texts, textsOf, valuesOf] using hi

theorem get?_files (parts : List Part) (name : String) :
    Table.get? name (files parts) = parts.findSome? fun p =>
      if p.header.name = some name then p.header.fileName.map (·, p.content) else none := by
  induction parts
  case nil => rfl
  case cons p ps hi =>
    rcases p with ⟨⟨_ | n, _ | f, c⟩, bs⟩
    case some.some =>
      by_cases hn : n = name
      case pos => simp [files, Table.get?, hn]
      case neg => simpa [files, Table.get?, hn] using hi
    all_goals simpa [files] using hi

theorem get?_reverse_files (parts : List Part) (name : String) :
    Table.get? name (files parts).reverse = lastFile? parts name := by
  have hr : (files parts).reverse = files parts.reverse := (List.filterMap_reverse ..).symm
  rw [hr, get?_files, lastFile?]

-- Whether there is a file that has a name.
def HasFile (parts : List Part) : Prop :=
  ∃ p ∈ parts, p.header.name.isSome ∧ p.header.fileName.isSome

instance (parts : List Part) : Decidable (HasFile parts) := inferInstanceAs (Decidable (∃ _ ∈ _, _))

theorem isEmpty_files (parts : List Part) : (files parts).isEmpty ↔ ¬ HasFile parts := by
  induction parts
  case nil => simp [files, HasFile]
  case cons p ps hi =>
    rcases p with ⟨⟨_ | n, _ | f, c⟩, bs⟩
    case some.some => simp [files, HasFile]
    all_goals simpa [files, HasFile] using hi

-- The files of each name, as some function shows the last one.
def lastFiles (f : String × Bytes → Json) (parts : List Part) : Table Json :=
  .ofList ((files parts).map fun p => (p.1, f p.2))

theorem sorted_lastFiles (f : String × Bytes → Json) (parts : List Part) :
    (lastFiles f parts).Sorted := .ofList _

theorem get?_lastFiles (f : String × Bytes → Json) (parts : List Part) (name : String) :
    (lastFiles f parts).get? name = (lastFile? parts name).map f := by
  rw [lastFiles, Table.get?_ofList, ← List.map_reverse, Table.get?_map, get?_reverse_files]

-- What files hold and how they are called.
def contents (parts : List Part) : Table Json := lastFiles (fun file => octetArray file.2) parts
def fileNames (parts : List Part) : Table Json := lastFiles (fun file => .str file.1) parts

def members (parts : List Part) : Table Json :=
  let fields := ((collect (texts parts)).mapValues joined).union (contents parts)
  if (files parts).isEmpty then fields else fields.insert fileNamesKey (.obj (fileNames parts))

theorem ofParts_eq (parts : List Part) : ofParts parts = .obj (members parts) := rfl

theorem sorted_members (parts : List Part) : (members parts).Sorted := by
  have hs := (sorted_joined (texts parts)).union (contents parts)
  rw [members]
  split
  case isTrue  => exact hs
  case isFalse => exact hs.insert _ _

-- Files count more than texts, and the key for file names more than both.
theorem get?_members (parts : List Part) (key : String) :
    (members parts).get? key =
      if key = fileNamesKey ∧ HasFile parts then some (.obj (fileNames parts))
      else ((lastFile? parts key).map fun file => octetArray file.2).or
        (joined? (textsOf parts key)) := by
  have hn : (contents parts).keys.Nodup := (sorted_lastFiles _ parts).nodup
  have hf : (((collect (texts parts)).mapValues joined).union (contents parts)).get? key =
      ((lastFile? parts key).map fun file => octetArray file.2).or
        (joined? (textsOf parts key)) := by
    rw [Table.get?_union, Table.get?_reverse hn, contents, get?_lastFiles, get?_joined,
      valuesOf_texts]
  rw [members]
  split
  case isTrue he => rw [if_neg fun h => (isEmpty_files parts).mp he h.2, hf]
  case isFalse he =>
    have hp : HasFile parts := Decidable.not_not.mp (mt (isEmpty_files parts).mpr he)
    rw [Table.get?_insert, hf]
    simp only [hp, and_true, eq_comm]

theorem kept_fileNames (parts : List Part) : (Json.obj (fileNames parts)).Kept 1 := by
  refine .obj_of_get? (sorted_lastFiles _ parts) fun name v h => ?_
  rw [fileNames, get?_lastFiles] at h
  have ⟨file, _, hv⟩ := Option.map_eq_some_iff.mp h
  exact hv ▸ .str file.1

theorem kept_octetArray (bs : Bytes) : (octetArray bs).Kept 1 := by
  refine .arr fun v hv => ?_
  have ⟨b, _, he⟩ := List.mem_map.mp hv
  have hb : b.toNat < 256 := b.toNat_lt
  have hi : -0x8000000000000000 ≤ (b.toNat : Int) ∧ (b.toNat : Int) < 0x10000000000000000 := by
    omega
  exact he ▸ ⟨hi, hi, Nat.zero_le _⟩

theorem kept_ofParts (parts : List Part) : (ofParts parts).Kept 2 := by
  refine ofParts_eq parts ▸ .obj_of_get? (sorted_members parts) fun key v h => ?_
  rw [get?_members] at h
  split at h
  case isTrue => exact Option.some.inj h ▸ kept_fileNames parts
  case isFalse =>
    rcases Option.or_eq_some_iff.mp h with hf | ⟨_, ht⟩
    case inl =>
      have ⟨file, _, hv⟩ := Option.map_eq_some_iff.mp hf
      exact hv ▸ kept_octetArray file.2
    case inr => exact kept_of_joined? ht 1

-- Parts that have a name.
def named (parts : List Part) : List Part := parts.filter fun p => p.header.name.isSome

theorem texts_named (parts : List Part) : texts (named parts) = texts parts := by
  induction parts
  case nil => rfl
  case cons p ps hi =>
    rcases p with ⟨⟨_ | n, _ | f, c⟩, bs⟩ <;> simpa [texts, named] using hi

theorem files_named (parts : List Part) : files (named parts) = files parts := by
  induction parts
  case nil => rfl
  case cons p ps hi =>
    rcases p with ⟨⟨_ | n, _ | f, c⟩, bs⟩ <;> simpa [files, named] using hi

theorem ofParts_named (parts : List Part) : ofParts (named parts) = ofParts parts := by
  simp only [ofParts, texts_named, files_named]

end CallFabric.Gateway.Payload
