import MediaRefresh.Text.Folding
import MediaRefresh.Value.Decode

/-!
# Items: the bag of external ids

An item carries ids under which other catalogues know it, each under the key of
its catalogue.  Entries stand in the order of their keys.  Keys are looked up
without regard to case and `set` never adds a second spelling of a key; a bag
read from a document may still hold several spellings, and then the first one in
order answers.
-/

set_option autoImplicit false

namespace MediaRefresh

/-- The entries of a bag with `key` set to `value`, in key order. -/
def insertEntry (key value : String) : List (String × String) → List (String × String)
  | [] => [(key, value)]
  | (k, v) :: rest =>
    if key < k then (key, value) :: (k, v) :: rest
    else if key = k then (key, value) :: rest
    else (k, v) :: insertEntry key value rest

theorem mem_insertEntry {key value : String} {es : List (String × String)} {e : String × String}
    (h : e ∈ insertEntry key value es) : e = (key, value) ∨ e ∈ es := by
  induction es with
  | nil => simpa [insertEntry] using h
  | cons x rest ih =>
    obtain ⟨k, v⟩ := x
    unfold insertEntry at h
    split at h
    · simpa using h
    · split at h
      · rcases List.mem_cons.mp h with h | h
        · exact Or.inl h
        · exact Or.inr (List.mem_cons_of_mem _ h)
      · rcases List.mem_cons.mp h with h | h
        · exact Or.inr (by simp [h])
        · rcases ih h with h | h
          · exact Or.inl h
          · exact Or.inr (List.mem_cons_of_mem _ h)

/-- External ids by key, in strictly increasing order of the keys. -/
structure ExternalIds where
  entries : List (String × String)
  sorted : entries.Pairwise (fun a b => a.1 < b.1)
  deriving DecidableEq

theorem insertEntry_sorted (key value : String) {es : List (String × String)}
    (h : es.Pairwise (fun a b => a.1 < b.1)) :
    (insertEntry key value es).Pairwise (fun a b => a.1 < b.1) := by
  induction es with
  | nil => simp [insertEntry]
  | cons x rest ih =>
    obtain ⟨k, v⟩ := x
    have hk : ∀ e ∈ rest, k < e.1 := (List.pairwise_cons.mp h).1
    have hr := (List.pairwise_cons.mp h).2
    unfold insertEntry
    split
    · next hlt =>
      refine List.pairwise_cons.mpr ⟨?_, h⟩
      intro e he
      rcases List.mem_cons.mp he with rfl | he
      · exact hlt
      · exact String.lt_trans hlt (hk e he)
    · split
      · next _ heq =>
        subst heq
        exact List.pairwise_cons.mpr ⟨hk, hr⟩
      · next hlt hne =>
        refine List.pairwise_cons.mpr ⟨?_, ih hr⟩
        intro e he
        rcases mem_insertEntry he with rfl | he
        · rcases Std.lt_trichotomy key k with h' | h' | h'
          · exact absurd h' hlt
          · exact absurd h' hne
          · exact h'
        · exact hk e he

namespace ExternalIds

/-- The bag without entries. -/
def empty : ExternalIds := ⟨[], .nil⟩

instance : Inhabited ExternalIds := ⟨empty⟩

instance : Repr ExternalIds := ⟨fun ids n => reprPrec ids.entries n⟩

/-- Stores `value` under exactly `key`. -/
def insert (ids : ExternalIds) (key value : String) : ExternalIds :=
  ⟨insertEntry key value ids.entries, insertEntry_sorted key value ids.sorted⟩

/-- The first entry whose key is `key` in some case. -/
def entry? (ids : ExternalIds) (key : String) : Option (String × String) :=
  ids.entries.find? fun e => Text.same e.1 key

/-- The id under `key`; an empty id counts as none. -/
def get (ids : ExternalIds) (key : String) : Option String :=
  ((ids.entry? key).map Prod.snd).filter (· ≠ "")

/-- Whether there is an entry under `key`, empty or not. -/
def contains (ids : ExternalIds) (key : String) : Bool :=
  ids.entries.any fun e => Text.same e.1 key

/-- Stores `value` under `key`, or under the spelling of it that is there. -/
def set (ids : ExternalIds) (key value : String) : ExternalIds :=
  ids.insert (((ids.entry? key).map Prod.fst).getD key) value

/-- The number of entries. -/
def size (ids : ExternalIds) : Nat := ids.entries.length

/-- Whether there are no entries. -/
def isEmpty (ids : ExternalIds) : Bool := ids.entries.isEmpty

/-- Whether some entry of `other` is answered here by the same id in some case. -/
def sharesAny (ids other : ExternalIds) : Bool :=
  other.entries.any fun e =>
    match ids.get e.1 with
    | some v => Text.same v e.2
    | none => false

/-- Adds those entries of a list whose keys are not there yet. -/
def mergeEntries (ids : ExternalIds) (es : List (String × String)) : ExternalIds :=
  es.foldl (fun ids e => if ids.contains e.1 then ids else ids.set e.1 e.2) ids

/-- Adds the entries of `other` whose keys are missing here. -/
def mergeMissing (ids other : ExternalIds) : ExternalIds := ids.mergeEntries other.entries

/-- The bag of a list of pairs, stored one after the other with `set`. -/
def collect (pairs : List (String × String)) : ExternalIds :=
  pairs.foldl (fun ids e => ids.set e.1 e.2) empty

/-- The bag of a list of pairs that may hold several spellings of a key; of equal
keys the later counts. -/
def ofEntries (pairs : List (String × String)) : ExternalIds :=
  pairs.foldl (fun ids e => ids.insert e.1 e.2) empty

/-- A bag written as a record. -/
def toValue (ids : ExternalIds) : Value :=
  .record (ids.entries.map fun e => (e.1, .text e.2))

/-- Reads a bag from a record of texts. -/
def decode : Decoder ExternalIds
  | .record fields =>
    (fields.mapM fun f => (Decode.text f.2).map fun s => (f.1, s)).map ofEntries
  | _ => none

end ExternalIds

end MediaRefresh
