import CallFabric.Proofs.Metadata.Passage

namespace CallFabric

namespace Headers

-- What the fields of a name show, in the order of their arrival. A field has a name that HTTP
-- allows, and shows its value where all octets are visible ASCII, blanks or tabs.
def shown (fields : List (String × Bytes)) (name : String) : List String :=
  fields.filterMap fun (n, value) =>
    if isName n ∧ Text.lower n = Text.lower name ∧ value.all isVisible
    then some (.ofList (value.map Bytes.charOf)) else none

theorem shown_cons (field : String × Bytes) (fields : List (String × Bytes)) (name : String) :
    shown (field :: fields) name = shown [field] name ++ shown fields name :=
  List.filterMap_append (l := [field])

theorem texts_add (hs : Headers) (n : String) (value : Bytes) (name : String) :
    (hs.add n value).texts (Text.lower name) =
      hs.texts (Text.lower name) ++ shown [(n, value)] name := by
  rw [add]
  split
  case isTrue h =>
    simp only [Bool.and_eq_true] at h
    rw [texts_append]
    simp only [texts, shown, List.filterMap_cons, List.filterMap_nil, visible?_eq, h.1, true_and]
    by_cases hn : Text.lower n = Text.lower name <;> simp [hn]
  case isFalse h =>
    -- What is left out has a name that is none, or a value that does not show.
    have hs : shown [(n, value)] name = [] := by
      apply List.filterMap_eq_nil_iff.mpr
      simp only [List.forall_mem_singleton]
      exact if_neg fun hc => h (by simp [hc.1, all_isValueOctet hc.2.2])
    rw [hs, List.append_nil]

theorem texts_foldl_add (fields : List (String × Bytes)) (hs : Headers) (name : String) :
    (fields.foldl (fun hs p => hs.add p.1 p.2) hs).texts (Text.lower name) =
      hs.texts (Text.lower name) ++ shown fields name := by
  induction fields generalizing hs
  case nil                  => simp [shown]
  case cons field fields hi =>
    rw [List.foldl_cons, hi, texts_add, shown_cons field fields, List.append_assoc]

theorem texts_ofPairs (fields : List (String × Bytes)) (name : String) :
    (ofPairs fields).texts (Text.lower name) = shown fields name :=
  texts_foldl_add fields [] name

theorem lower_of_mem_add {hs : Headers} (h : ∀ p ∈ hs, Text.lower p.1 = p.1) (n : String)
    (value : Bytes) : ∀ p ∈ hs.add n value, Text.lower p.1 = p.1 := by
  rw [add]
  split
  case isFalse => exact h
  case isTrue =>
    simp only [List.forall_mem_append, List.forall_mem_singleton]
    exact ⟨h, Text.lower_lower n⟩

theorem lower_of_mem_foldl_add (fields : List (String × Bytes)) {hs : Headers}
    (h : ∀ p ∈ hs, Text.lower p.1 = p.1) :
    ∀ p ∈ fields.foldl (fun hs p => hs.add p.1 p.2) hs, Text.lower p.1 = p.1 := by
  induction fields generalizing hs
  case nil                  => exact h
  case cons field fields hi => exact hi (lower_of_mem_add h field.1 field.2)

theorem lower_of_mem_ofPairs (fields : List (String × Bytes)) :
    ∀ p ∈ ofPairs fields, Text.lower p.1 = p.1 :=
  lower_of_mem_foldl_add fields fun _ h => absurd h List.not_mem_nil

end Headers

namespace Metadata

variable {m : Metadata}

abbrev Keyed := String → Option String

namespace Keyed

-- What is under a key is replaced, or taken away.
def set (f : Keyed) (key : String) (value? : Option String) : Keyed :=
  fun k => if k = key then value? else f k

-- The fields of each name in one value, connection control left out.
def collected (fields : List (String × Bytes)) : Keyed := fun key =>
  match Headers.shown fields key with
  | []     => none
  | values => if key = "connection" then none else some (Text.join "," values)

end Keyed

-- A map holds what metadata hold under keys in any spelling, and metadata hold nothing else.
structure Shows (m : Metadata) (f : Keyed) : Prop where
  get?_eq : ∀ key, m.get? key = f (Text.lower key)
  mem_iff : ∀ key value, (key, value) ∈ m.entries ↔ Text.lower key = key ∧ f key = some value

theorem Tidy.shows {f : Keyed} (hm : m.Tidy) (h : ∀ key, m.get? key = f (Text.lower key)) :
    m.Shows f where
  get?_eq := h
  mem_iff key value := by
    have hk : Text.lower key = key → m.entries.get? key = f key := fun hk => by
      simpa [get?, hk] using h key
    rw [← hm.sorted.get?_eq_some]
    constructor
    case mp =>
      intro hg
      have hl := hm.lower _ (Table.mem_of_get? hg)
      exact ⟨hl, hk hl ▸ hg⟩
    case mpr =>
      rintro ⟨hl, hf⟩
      exact (hk hl).trans hf

theorem get?_collected (fields : List (String × Bytes)) (key : String) :
    (ofHeaders (.ofPairs fields)).get? key = Keyed.collected fields (Text.lower key) := by
  have hl : Headers.shown fields (Text.lower key) = Headers.shown fields key := by
    simp [Headers.shown, Text.lower_lower]
  rw [get?_ofHeaders (Headers.lower_of_mem_ofPairs fields), Headers.joined?, Headers.texts_ofPairs,
    Keyed.collected, hl]
  cases Headers.shown fields key <;> simp

-- A change under a key in any spelling.
inductive Edit
  | insert (key value : String)
  | erase (key : String)

namespace Edit

-- What is handed out, and what the metadata are then. Only what is erased is handed out.
def act (m : Metadata) : Edit → Option String × Metadata
  | .insert key value => (none, m.insert key value)
  | .erase key        => (m.get? key, m.erase key)

-- The same of a map on keys in lower case.
def onMap (f : Keyed) : Edit → Option String × Keyed
  | .insert key value => (none, f.set (Text.lower key) (some value))
  | .erase key        => (f (Text.lower key), f.set (Text.lower key) none)

def run {α : Type} (step : α → Edit → Option String × α) (a : α) :
    List Edit → List (Option String) × α
  | []         => ([], a)
  | e :: edits =>
    let (taken, b) := step a e
    let (others, c) := run step b edits
    (taken :: others, c)

end Edit

theorem get?_erase (hm : m.entries.Sorted) (k key : String) :
    (m.erase k).get? key = if Text.lower key = Text.lower k then none else m.get? key := by
  split
  case isFalse h => exact get?_erase_of_ne (Ne.symm h)
  case isTrue h =>
    apply Table.get?_eq_none
    rw [erase, Table.erase_eq_filter hm.nodup, h]
    simp [Table.keys]

-- One change does to metadata what it does to the map that they are.
theorem act_shows {f : Keyed} (hm : m.Tidy) (h : ∀ key, m.get? key = f (Text.lower key))
    (e : Edit) :
    (e.act m).1 = (e.onMap f).1 ∧ (e.act m).2.Tidy ∧
      ∀ key, (e.act m).2.get? key = (e.onMap f).2 (Text.lower key) := by
  cases e
  case insert k v =>
    refine ⟨rfl, hm.insert k v, fun key => ?_⟩
    simp [Edit.act, Edit.onMap, Keyed.set, get?_insert, h, eq_comm]
  case erase k =>
    refine ⟨h k, hm.erase k, fun key => ?_⟩
    simp [Edit.act, Edit.onMap, Keyed.set, get?_erase hm.sorted, h]

theorem run_shows (edits : List Edit) {f : Keyed} (hm : m.Tidy)
    (h : ∀ key, m.get? key = f (Text.lower key)) :
    (Edit.run Edit.act m edits).1 = (Edit.run Edit.onMap f edits).1 ∧
      (Edit.run Edit.act m edits).2.Shows (Edit.run Edit.onMap f edits).2 := by
  induction edits generalizing m f
  case nil => exact ⟨rfl, hm.shows h⟩
  case cons e edits hi =>
    have ⟨ht, hm, h⟩ := act_shows hm h e
    have ⟨hs, hf⟩ := hi hm h
    exact ⟨List.cons_eq_cons.mpr ⟨ht, hs⟩, hf⟩

-- What is collected from the fields of a request is a map on keys in lower case: each name, in any
-- spelling, has the values that its fields show joined by commas in the order of their arrival, and
-- nothing where none shows one or where it is that of connection control. All changes after that do
-- to the metadata, and hand out of it, what they do to this map under the keys in lower case.
theorem collects_caseless (fields : List (String × Bytes)) (edits : List Edit) :
    (ofHeaders (.ofPairs fields)).Shows (Keyed.collected fields) ∧
    (Edit.run Edit.act (ofHeaders (.ofPairs fields)) edits).1 =
      (Edit.run Edit.onMap (Keyed.collected fields) edits).1 ∧
    (Edit.run Edit.act (ofHeaders (.ofPairs fields)) edits).2.Shows
      (Edit.run Edit.onMap (Keyed.collected fields) edits).2 := by
  have hm : (ofHeaders (.ofPairs fields)).Tidy := (Made.ofHeaders _).tidy
  have ⟨ht, hs⟩ := run_shows edits hm (get?_collected fields)
  exact ⟨hm.shows (get?_collected fields), ht, hs⟩

end Metadata
end CallFabric
