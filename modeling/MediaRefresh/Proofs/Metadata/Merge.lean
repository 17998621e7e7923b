import MediaRefresh.Metadata.Apply
import MediaRefresh.Proofs.Item.ExternalIds
import MediaRefresh.Proofs.Numeric.Equality

/-!
# Metadata: what merging results makes of an item

The fields that results can fill are one family, `MetadataField`, and one rule governs
all of them: a field ends up with the first present value among its own and those that
are offered (`settled`), where the first offer stands before the field's own value if it
may overwrite.  `Follows` says so of an item after a list of results; it composes along
the list, and a result that changes nothing in its sense leaves the item as it is.
-/

set_option autoImplicit false

namespace MediaRefresh

open Numeric

/-! ## The first present value -/

section Settled

variable {β : Type} {present : β → Bool} {overwrite : Bool} {own a : β} {offers rest : List β}

/-- A field's own value and those offered to it, the one that counts most first. -/
def ranked (overwrite : Bool) (own : β) (offers : List β) : List β :=
  match overwrite, offers with
  | true, first :: rest => first :: own :: rest
  | _, offers => own :: offers

/-- What becomes of a field: the first present value, or its own when none is. -/
def settled (present : β → Bool) (overwrite : Bool) (own : β) (offers : List β) : β :=
  ((ranked overwrite own offers).find? present).getD own

theorem mem_ranked : a ∈ ranked overwrite own offers ↔ a = own ∨ a ∈ offers := by
  unfold ranked
  split
  · simp only [List.mem_cons]
    exact or_left_comm
  · exact List.mem_cons

theorem settled_nil : settled present overwrite own [] = own := by
  cases overwrite <;> cases hown : present own <;> simp [settled, ranked, hown]

theorem settled_singleton : settled present overwrite own [a] =
    if present a && (overwrite || !present own) then a else own := by
  cases overwrite <;> cases hown : present own <;> cases ha : present a <;>
    simp [settled, ranked, hown, ha]

/-- The first offer settles by itself, and nothing after it may overwrite. -/
theorem settled_cons : settled present overwrite own (a :: rest) =
    settled present false (settled present overwrite own [a]) rest := by
  rw [settled_singleton]
  cases overwrite <;> cases hown : present own <;> cases ha : present a <;>
    simp [settled, ranked, hown, ha]

theorem present_settled (h : a = own ∨ a ∈ offers) (ha : present a = true) :
    present (settled present overwrite own offers) = true := by
  have hfound : ((ranked overwrite own offers).find? present).isSome = true :=
    List.find?_isSome.mpr ⟨a, mem_ranked.mpr h, ha⟩
  obtain ⟨b, hb⟩ := Option.isSome_iff_exists.mp hfound
  have hsettled : settled present overwrite own offers = b := by
    unfold settled
    rw [hb]
    rfl
  rw [hsettled]
  exact List.find?_some hb

/-- What has settled is not filled again by an offer that it has settled from. -/
theorem settled_fill (h : a ∈ offers) :
    settled present false (settled present overwrite own offers) [a] =
      settled present overwrite own offers := by
  rw [settled_singleton]
  cases ha : present a with
  | false => rfl
  | true =>
    have hpresent : present (settled present overwrite own offers) = true :=
      present_settled (Or.inr h) ha
    simp [hpresent]

/-- What has settled is not changed by the first offer a second time. -/
theorem settled_again : settled present overwrite (settled present overwrite own (a :: rest)) [a] =
    settled present overwrite own (a :: rest) := by
  cases overwrite with
  | false => exact settled_fill List.mem_cons_self
  | true =>
    rw [settled_singleton]
    cases ha : present a with
    | false => rfl
    | true => simp [settled, ranked, ha]

end Settled

/-! ## The fields of metadata -/

/-- A field of an item that results can fill. -/
inductive MetadataField where
  | name
  | overview
  | productionYear
  | premiereDate
  | communityRating
  | genres
  /-- the id under a key, in any case -/
  | externalId (key : String)

namespace MetadataField

/-- What a field holds. -/
def Value : MetadataField → Type
  | name => String
  | overview => Option String
  | productionYear => Option Int
  | premiereDate => Option Calendar.Date
  | communityRating => Option Binary32
  | genres => List String
  | externalId _ => Option String

/-- Whether there is anything in a value. -/
def present : (f : MetadataField) → f.Value → Bool
  | name, n => !Text.blank n
  | overview, v => Option.isSome v
  | productionYear, v => Option.isSome v
  | premiereDate, v => Option.isSome v
  | communityRating, v => Option.isSome v
  | genres, gs => !List.isEmpty gs
  | externalId _, v => Option.isSome v

/-- A field of an item. -/
def ofItem (f : MetadataField) (i : Item) : f.Value :=
  match f with
  | name => i.name
  | overview => i.overview
  | productionYear => i.productionYear
  | premiereDate => i.premiereDate
  | communityRating => i.communityRating
  | genres => i.genres
  | externalId key => i.externalIds.get key

/-- What a result offers for a field; a missing name is as good as an empty one. -/
def ofResult (f : MetadataField) (r : MetadataResult) : f.Value :=
  match f with
  | name => r.name.getD ""
  | overview => r.overview
  | productionYear => r.productionYear
  | premiereDate => r.premiereDate
  | communityRating => r.communityRating
  | genres => r.genres
  | externalId key => r.externalIds.get key

/-- A value as far as equality tells it from others: of numbers, zero has no sign. -/
def plain (f : MetadataField) (v : f.Value) : f.Value :=
  match f, v with
  | communityRating, v => Option.map Binary.unsignedZero v
  | name, v => v
  | overview, v => v
  | productionYear, v => v
  | premiereDate, v => v
  | genres, v => v
  | externalId _, v => v

end MetadataField

/-- Each field of `item'` is the first present value among that of `item` and those of the
results, of which the first one goes before the item if it may overwrite. -/
def Follows (overwrite : Bool) (item : Item) (results : List MetadataResult) (item' : Item) :
    Prop :=
  ∀ f : MetadataField, f.plain (f.ofItem item') =
    settled f.present overwrite (f.plain (f.ofItem item))
      (results.map fun r => f.plain (f.ofResult r))

namespace Follows

variable {overwrite : Bool} {item mid item' : Item} {r : MetadataResult}
  {results : List MetadataResult}

theorem nil : Follows overwrite item [] item := fun _ => settled_nil.symm

theorem cons (h : Follows overwrite item [r] mid) (hrest : Follows false mid results item') :
    Follows overwrite item (r :: results) item' := by
  intro f
  rw [hrest f, h f, List.map_cons, List.map_cons, List.map_nil]
  exact settled_cons.symm

theorem fill (h : Follows overwrite item results item') (hr : r ∈ results) :
    Follows false item' [r] item' := by
  intro f
  rw [h f]
  exact (settled_fill (List.mem_map_of_mem hr)).symm

theorem again (h : Follows overwrite item (r :: results) item') :
    Follows overwrite item' [r] item' := by
  intro f
  rw [h f]
  exact settled_again.symm

end Follows

/-! ## Merging one field -/

section MergeField

variable {α : Type} {same : α → α → Bool} {overwrite : Bool} {target source : Option α}

/-- Values are told apart as far as `norm` does, and equality does not tell more. -/
theorem mergeField_settled (norm : α → α) (hsame : ∀ x v, same x v = true → norm x = norm v) :
    (mergeField same overwrite target source).1.map norm =
      settled Option.isSome overwrite (target.map norm) [source.map norm] := by
  rw [settled_singleton]
  cases source with
  | none => rfl
  | some v =>
    cases target with
    | none => simp [mergeField]
    | some x =>
      cases overwrite with
      | false => simp [mergeField]
      | true =>
        cases heq : same x v with
        | false => simp [mergeField, heq]
        | true => simp [mergeField, heq, hsame x v heq]

theorem mergeField_settled_of_beq [BEq α] [LawfulBEq α] :
    (mergeField (· == ·) overwrite target source).1 =
      settled Option.isSome overwrite target [source] := by
  simpa using mergeField_settled id fun _ _ => eq_of_beq

theorem mergeField_of_settled (norm : α → α)
    (hsame : ∀ x, ∀ v ∈ source, norm x = norm v → same x v = true)
    (h : target.map norm = settled Option.isSome overwrite (target.map norm) [source.map norm]) :
    mergeField same overwrite target source = (target, false) := by
  rw [settled_singleton] at h
  cases source with
  | none => rfl
  | some v =>
    cases target with
    | none => simp at h
    | some x =>
      cases overwrite with
      | false => simp [mergeField]
      | true =>
        have heq : same x v = true := hsame x v rfl (by simpa using h)
        simp [mergeField, heq]

theorem mergeField_of_settled_beq [BEq α] [LawfulBEq α]
    (h : target = settled Option.isSome overwrite target [source]) :
    mergeField (· == ·) overwrite target source = (target, false) := by
  refine mergeField_of_settled id (fun x v _ heq => beq_iff_eq.mpr heq) ?_
  simpa using h

theorem mergeField_of_some (h : target.isSome = true) :
    (mergeField same false target source).1 = target := by
  unfold mergeField
  cases source with
  | none => rfl
  | some v => simp [Option.isNone_eq_false_iff.mpr h]

end MergeField

section MergeName

variable {overwrite : Bool} {target : String} {source : Option String}

theorem mergeName_settled : (mergeName overwrite target source).1 =
    settled (fun n => !Text.blank n) overwrite target [source.getD ""] := by
  rw [settled_singleton]
  cases source with
  | none => simp [mergeName, Text.blank]
  | some n =>
    simp only [mergeName, Option.getD_some, Bool.not_not]
    by_cases heq : target = n
    · simp [heq]
    · cases hcase : !Text.blank n && (overwrite || Text.blank target) <;> simp [heq]

theorem mergeName_of_settled
    (h : target = settled (fun n => !Text.blank n) overwrite target [source.getD ""]) :
    mergeName overwrite target source = (target, false) := by
  rw [← mergeName_settled] at h
  unfold mergeName at h ⊢
  cases source with
  | none => rfl
  | some n =>
    dsimp only at h ⊢
    split
    · rename_i hset
      rw [if_pos hset] at h
      obtain rfl : target = n := h
      simp at hset
    · rfl

theorem mergeName_of_present (h : Text.blank target = false) :
    (mergeName false target source).1 = target := by
  rw [mergeName_settled, settled_singleton]
  simp [h]

end MergeName

section MergeGenres

variable {overwrite : Bool} {target source : List String}

theorem mergeGenres_settled : (mergeGenres overwrite target source).1 =
    settled (fun gs => !gs.isEmpty) overwrite target [source] := by
  rw [settled_singleton]
  unfold mergeGenres
  simp only [Bool.not_not]
  by_cases heq : target = source
  · simp [heq]
  · cases hcase : !source.isEmpty && (overwrite || target.isEmpty) <;> simp [heq]

theorem mergeGenres_of_settled
    (h : target = settled (fun gs => !gs.isEmpty) overwrite target [source]) :
    mergeGenres overwrite target source = (target, false) := by
  rw [← mergeGenres_settled] at h
  unfold mergeGenres at h ⊢
  split
  · rename_i hset
    rw [if_pos hset] at h
    obtain rfl : target = source := h
    simp at hset
  · rfl

theorem mergeGenres_of_present (h : target.isEmpty = false) :
    (mergeGenres false target source).1 = target := by
  rw [mergeGenres_settled, settled_singleton]
  simp [h]

end MergeGenres

/-! ## Merging external ids -/

section MergeIds

variable {overwrite : Bool} {acc : ExternalIds × Bool} {e : String × String} {key value : String}
  {es : List (String × String)} {ids : ExternalIds}

/-- An id as an offer; an empty one says nothing. -/
def offeredId (value : String) : Option String := (some value).filter (· ≠ "")

@[simp] theorem offeredId_empty : offeredId "" = none := rfl

theorem offeredId_of_ne_empty (h : value ≠ "") : offeredId value = some value := by
  simp [offeredId, h]

theorem mergeId_get_of_same (h : Text.same e.1 key = true) :
    (mergeId overwrite acc e).1.get key =
      settled Option.isSome overwrite (acc.1.get key) [offeredId e.2] := by
  rw [settled_singleton]
  unfold mergeId
  by_cases hempty : e.2 = ""
  · simp [hempty]
  · rw [if_neg hempty, offeredId_of_ne_empty hempty, ← acc.1.get_congr h]
    cases hget : acc.1.get e.1 with
    | none => simp [ExternalIds.get_set_of_same _ h hempty]
    | some v =>
      cases overwrite with
      | false => simp [← acc.1.get_congr h, hget]
      | true =>
        by_cases heq : v = e.2
        · simp [← acc.1.get_congr h, hget, heq]
        · simp [heq, ExternalIds.get_set_of_same _ h hempty]

theorem mergeId_get_of_not_same (h : Text.same e.1 key = false) :
    (mergeId overwrite acc e).1.get key = acc.1.get key := by
  unfold mergeId
  split
  · rfl
  · dsimp only
    split
    · exact ExternalIds.get_set_of_not_same _ _ h
    · rfl

theorem foldl_mergeId_get_of_not_same (h : ∀ e ∈ es, Text.same e.1 key = false) :
    (es.foldl (mergeId overwrite) acc).1.get key = acc.1.get key := by
  induction es generalizing acc with
  | nil => rfl
  | cons e rest ih =>
    rw [List.foldl_cons, ih fun e he => h e (List.mem_cons_of_mem _ he)]
    exact mergeId_get_of_not_same (h e List.mem_cons_self)

/-- Where nothing may be overwritten, the first id that is offered counts if there is none. -/
theorem foldl_mergeId_fill : (es.foldl (mergeId false) acc).1.get key =
    (acc.1.get key).or (ExternalIds.idsUnder key es).head? := by
  induction es generalizing acc with
  | nil => exact Option.or_none.symm
  | cons e rest ih =>
    rw [List.foldl_cons, ih]
    cases hsame : Text.same e.1 key with
    | false =>
      rw [mergeId_get_of_not_same hsame, ExternalIds.idsUnder_cons_of_not_same (.inl hsame)]
    | true =>
      rw [mergeId_get_of_same hsame, settled_singleton]
      by_cases hempty : e.2 = ""
      · rw [hempty, ExternalIds.idsUnder_cons_of_not_same (.inr hempty)]
        rfl
      · rw [offeredId_of_ne_empty hempty, ExternalIds.idsUnder_cons_of_same hsame hempty]
        cases acc.1.get key with
        | none => rfl
        | some v => rfl

/-- Where ids may be overwritten, the last one that is offered counts. -/
theorem foldl_mergeId_replace : (es.foldl (mergeId true) acc).1.get key =
    (ExternalIds.idsUnder key es).getLast?.or (acc.1.get key) := by
  induction es generalizing acc with
  | nil => rfl
  | cons e rest ih =>
    rw [List.foldl_cons, ih]
    cases hsame : Text.same e.1 key with
    | false =>
      rw [mergeId_get_of_not_same hsame, ExternalIds.idsUnder_cons_of_not_same (.inl hsame)]
    | true =>
      rw [mergeId_get_of_same hsame, settled_singleton]
      by_cases hempty : e.2 = ""
      · rw [hempty, ExternalIds.idsUnder_cons_of_not_same (.inr hempty)]
        rfl
      · rw [offeredId_of_ne_empty hempty, ExternalIds.idsUnder_cons_of_same hsame hempty,
          List.getLast?_cons]
        cases (ExternalIds.idsUnder key rest).getLast? with
        | none => rfl
        | some v => rfl

/-- By induction on the entries, of which at most one is under the key. -/
theorem foldl_mergeId_get (h : es.Pairwise fun a b => Text.same a.1 b.1 = false) :
    (es.foldl (mergeId overwrite) acc).1.get key =
      settled Option.isSome overwrite (acc.1.get key)
        [((es.find? fun e => Text.same e.1 key).map Prod.snd).filter (· ≠ "")] := by
  induction es generalizing acc with
  | nil => simp [settled_singleton]
  | cons e rest ih =>
    obtain ⟨hhead, hrest⟩ := List.pairwise_cons.mp h
    rw [List.foldl_cons]
    cases hsame : Text.same e.1 key with
    | true =>
      have hothers : ∀ a ∈ rest, Text.same a.1 key = false := by
        intro a ha
        rw [← Text.same_congr hsame, Text.same_comm]
        exact hhead a ha
      rw [foldl_mergeId_get_of_not_same hothers, mergeId_get_of_same hsame,
        List.find?_cons_of_pos (by exact hsame)]
      rfl
    | false =>
      rw [ih hrest, mergeId_get_of_not_same hsame, List.find?_cons_of_neg (by simp [hsame])]

theorem mergeId_of_settled
    (h : ids.get e.1 = settled Option.isSome overwrite (ids.get e.1) [offeredId e.2]) :
    mergeId overwrite (ids, false) e = (ids, false) := by
  rw [settled_singleton] at h
  unfold mergeId
  by_cases hempty : e.2 = ""
  · rw [if_pos hempty]
  · rw [if_neg hempty]
    rw [offeredId_of_ne_empty hempty] at h
    cases hget : ids.get e.1 with
    | none => simp [hget] at h
    | some v =>
      cases overwrite with
      | false => simp
      | true =>
        have heq : v = e.2 := by simpa [hget] using h
        simp [heq]

theorem foldl_mergeId_of_settled {offers : ExternalIds} (hoffers : offers.Unambiguous)
    (h : ∀ key, ids.get key = settled Option.isSome overwrite (ids.get key) [offers.get key]) :
    offers.entries.foldl (mergeId overwrite) (ids, false) = (ids, false) := by
  refine List.foldlRecOn (motive := fun acc => acc = (ids, false)) _ _ rfl ?_
  rintro acc rfl e he
  refine mergeId_of_settled ?_
  by_cases hempty : e.2 = ""
  · simp [hempty, settled_singleton]
  · rw [offeredId_of_ne_empty hempty, ← hoffers.get_of_mem he hempty]
    exact h e.1

/-- Where nothing is offered under a key, not even an empty entry is touched. -/
theorem foldl_mergeId_keeps_entry {offers : ExternalIds} (hoffers : offers.Unambiguous)
    (h : offers.get key = none) :
    ExternalIds.entry? (offers.entries.foldl (mergeId overwrite) acc).1 key =
      ExternalIds.entry? acc.1 key := by
  refine List.foldlRecOn (motive := fun now : ExternalIds × Bool =>
    ExternalIds.entry? now.1 key = ExternalIds.entry? acc.1 key) _ _ rfl ?_
  intro now hnow e he
  unfold mergeId
  split
  · exact hnow
  · rename_i hvalue
    dsimp only
    split
    · have hother : Text.same e.1 key = false := by
        refine Bool.eq_false_iff.mpr fun hsame => ?_
        have hget := hoffers.get_of_mem he hvalue
        rw [offers.get_congr hsame, h] at hget
        cases hget
      rw [ExternalIds.entry?_set_of_not_same _ _ hother, hnow]
    · exact hnow

theorem mergeId_get_of_some (h : acc.1.get key = some value) :
    (mergeId false acc e).1.get key = some value := by
  cases hsame : Text.same e.1 key with
  | true => rw [mergeId_get_of_same hsame, settled_singleton]; simp [h]
  | false => rw [mergeId_get_of_not_same hsame, h]

theorem foldl_mergeId_get_of_some (h : acc.1.get key = some value) :
    (es.foldl (mergeId false) acc).1.get key = some value :=
  List.foldlRecOn (motive := fun acc : ExternalIds × Bool => acc.1.get key = some value) _ _ h
    fun _ hacc _ _ => mergeId_get_of_some hacc

end MergeIds

/-! ## Applying a result -/

/-- No present value of a field has changed. -/
def Retained (item item' : Item) : Prop :=
  ∀ f : MetadataField, f.present (f.ofItem item) = true → f.ofItem item' = f.ofItem item

theorem Retained.refl (item : Item) : Retained item item := fun _ _ => rfl

theorem Retained.trans {item mid item' : Item} (h : Retained item mid) (h' : Retained mid item') :
    Retained item item' := by
  intro f hpresent
  have hmid := h f hpresent
  rw [← hmid] at hpresent
  rw [h' f hpresent, hmid]

/-- An item with the metadata of another one. -/
def Item.withMetadataOf (item other : Item) : Item :=
  { item with
    name := other.name
    overview := other.overview
    productionYear := other.productionYear
    premiereDate := other.premiereDate
    communityRating := other.communityRating
    genres := other.genres
    externalIds := other.externalIds }

namespace MetadataResult

variable {r : MetadataResult} {overwrite : Bool} {item : Item}

/-- The numbers of the result are numbers, and no two of its keys differ only in case. -/
structure WellFormed (r : MetadataResult) : Prop where
  rating : ∀ x ∈ r.communityRating, x.isNaN = false
  ids : r.externalIds.Unambiguous

theorem applyTo_follows (hids : r.externalIds.Unambiguous) :
    Follows overwrite item [r] (r.applyTo overwrite item).1 := by
  intro f
  cases f with
  | name => exact mergeName_settled
  | overview => exact mergeField_settled_of_beq
  | productionYear => exact mergeField_settled_of_beq
  | premiereDate => exact mergeField_settled_of_beq
  | communityRating =>
    exact mergeField_settled Binary.unsignedZero fun _ _ => Binary.unsignedZero_eq_of_equal
  | genres => exact mergeGenres_settled
  | externalId key => exact foldl_mergeId_get hids

/-- A result that an item follows already changes nothing, and says so. -/
theorem applyTo_of_follows (hr : r.WellFormed) (h : Follows overwrite item [r] item) :
    r.applyTo overwrite item = (item, false) := by
  have hname : mergeName overwrite item.name r.name = (item.name, false) :=
    mergeName_of_settled (h .name)
  have hoverview : mergeField (· == ·) overwrite item.overview r.overview =
      (item.overview, false) := mergeField_of_settled_beq (h .overview)
  have hyear : mergeField (· == ·) overwrite item.productionYear r.productionYear =
      (item.productionYear, false) := mergeField_of_settled_beq (h .productionYear)
  have hdate : mergeField (· == ·) overwrite item.premiereDate r.premiereDate =
      (item.premiereDate, false) := mergeField_of_settled_beq (h .premiereDate)
  have hrating : mergeField Binary.equal overwrite item.communityRating r.communityRating =
      (item.communityRating, false) := mergeField_of_settled Binary.unsignedZero
    (fun _ v hv heq => Binary.equal_of_unsignedZero_eq heq (hr.rating v hv)) (h .communityRating)
  have hgenres : mergeGenres overwrite item.genres r.genres = (item.genres, false) :=
    mergeGenres_of_settled (h .genres)
  have hids : r.externalIds.entries.foldl (mergeId overwrite) (item.externalIds, false) =
      (item.externalIds, false) := foldl_mergeId_of_settled hr.ids fun key => h (.externalId key)
  unfold applyTo
  rw [hname, hoverview, hyear, hdate, hrating, hgenres, hids]
  rfl

theorem applyTo_retained : Retained item (r.applyTo false item).1 := by
  intro f hpresent
  cases f with
  | name => exact mergeName_of_present ((Bool.not_eq_true' _).mp hpresent)
  | overview => exact mergeField_of_some hpresent
  | productionYear => exact mergeField_of_some hpresent
  | premiereDate => exact mergeField_of_some hpresent
  | communityRating => exact mergeField_of_some hpresent
  | genres => exact mergeGenres_of_present ((Bool.not_eq_true' _).mp hpresent)
  | externalId key =>
    obtain ⟨v, hv⟩ := Option.isSome_iff_exists.mp hpresent
    have hget : item.externalIds.get key = some v := hv
    have hkept : (r.applyTo false item).1.externalIds.get key = some v :=
      foldl_mergeId_get_of_some hget
    exact hkept.trans hget.symm

end MetadataResult

/-! ## Applying several results -/

/-- An item after results, in order.  Only the first of them may overwrite. -/
def Item.withResults (item : Item) (overwrite : Bool) : List MetadataResult → Item
  | [] => item
  | r :: rest => (r.applyTo overwrite item).1.withResults false rest

namespace Item

variable {overwrite : Bool} {results : List MetadataResult}

theorem withResults_follows (item : Item) (h : ∀ r ∈ results, r.externalIds.Unambiguous) :
    Follows overwrite item results (item.withResults overwrite results) := by
  induction results generalizing item overwrite with
  | nil => exact .nil
  | cons r rest ih =>
    obtain ⟨hr, hrest⟩ := List.forall_mem_cons.mp h
    exact .cons (MetadataResult.applyTo_follows hr) (ih _ hrest)

/-- An entry under a key that no result has an id for stays as it is. -/
theorem withResults_keeps_entry (item : Item) {key : String}
    (h : ∀ r ∈ results, r.externalIds.Unambiguous ∧ r.externalIds.get key = none) :
    ExternalIds.entry? (item.withResults overwrite results).externalIds key =
      item.externalIds.entry? key := by
  induction results generalizing item overwrite with
  | nil => rfl
  | cons r rest ih =>
    obtain ⟨⟨hids, hnone⟩, hrest⟩ := List.forall_mem_cons.mp h
    exact (ih _ hrest).trans (foldl_mergeId_keeps_entry hids hnone)

theorem withResults_retained (item : Item) : Retained item (item.withResults false results) := by
  induction results generalizing item with
  | nil => exact .refl item
  | cons r rest ih => exact MetadataResult.applyTo_retained.trans (ih _)

/-- Only metadata is changed. -/
theorem withResults_withMetadataOf (item : Item) : item.withResults overwrite results =
    item.withMetadataOf (item.withResults overwrite results) := by
  induction results generalizing item overwrite with
  | nil => rfl
  | cons r rest ih => exact ih (r.applyTo overwrite item).1

end Item

end MediaRefresh
