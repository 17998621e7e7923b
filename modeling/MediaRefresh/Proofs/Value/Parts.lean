import MediaRefresh.Image.Type
import MediaRefresh.Item.Basic
import MediaRefresh.Item.Update
import MediaRefresh.Provider.Plugins
import MediaRefresh.Refresh.Options
import MediaRefresh.Proofs.Calendar.Text
import MediaRefresh.Proofs.Item.ExternalIds
import MediaRefresh.Proofs.Item.Identifier
import MediaRefresh.Proofs.Numeric.Conversion
import MediaRefresh.Proofs.Value.Redrawing

/-!
# Values: reading the parts of records

Numbers, names, identifiers, days and moments are read as they are written, and so is the bag
of external ids with its entries in any order.
-/

set_option autoImplicit false

namespace MediaRefresh

open Form

/-! ## Numbers -/

namespace Numeric

/-- The integer has 32 bits and a sign. -/
def IsInt32 (n : Int) : Prop := -2147483648 ≤ n ∧ n ≤ 2147483647

instance (n : Int) : Decidable (IsInt32 n) := inferInstanceAs (Decidable (_ ∧ _))

theorem stands_int32 {n : Int} (h : IsInt32 n) : Stands (.integer n) Decode.int32 n :=
  ⟨rfl, if_pos h⟩

theorem stands_nat32 {n : Nat} (h : n < twoTo 32) : Stands (.integer n) Decode.nat32 n :=
  ⟨rfl, if_pos h⟩

theorem stands_nat64 {n : Nat} (h : n < twoTo 64) : Stands (.integer n) Decode.nat64 n :=
  ⟨rfl, if_pos h⟩

theorem stands_double (x : Binary64) : Stands (.real x) Decode.double x := ⟨rfl, rfl⟩

/-- A number in single precision is written in double precision. -/
theorem stands_single {x : Binary32} (h : x.isFinite = true) :
    Stands (.real (x.convert .double)) (Decode.number .single) x :=
  ⟨rfl, congrArg some (Binary.convert_double_single h)⟩

end Numeric

/-! ## Names -/

theorem ItemKind.stands (d : Dialect) (k : ItemKind) : Stands k.toValue (decode d) k :=
  stands_named d k.mem_all (by decide)

theorem ImageType.stands (d : Dialect) (t : ImageType) : Stands t.toValue (decode d) t :=
  stands_named d t.mem_all (by decide)

theorem ImageType.stands_list (d : Dialect) (ts : List ImageType) :
    Stands (.list (ts.map toValue)) (Decode.list (decode d)) ts :=
  Form.stands_list fun t _ => t.stands d

theorem RefreshMode.stands (d : Dialect) (m : RefreshMode) : Stands m.toValue (decode d) m :=
  stands_named d m.mem_all (by decide)

theorem Priority.stands (d : Dialect) (p : Priority) : Stands p.toValue (decode d) p :=
  stands_named d p.mem_all (by decide)

theorem Change.stands (d : Dialect) (c : Change) : Stands c.toValue (decode d) c :=
  stands_named d c.mem_all (by decide)

theorem PluginRole.stands (d : Dialect) (r : PluginRole) : Stands (.text r.name) (decode d) r :=
  stands_named d r.mem_all (by decide)

/-! ## Texts that are read further -/

theorem ItemId.stands (id : ItemId) : Stands id.toValue decode id := ⟨rfl, id.parse?_text⟩

theorem Calendar.Date.stands (day : Date) : Stands day.toValue Date.decode day :=
  ⟨rfl, day.parse?_text⟩

theorem Calendar.Instant.stands {t : Instant} (h : t.OnClock) :
    Stands t.toValue Instant.decode t :=
  ⟨rfl, parse?_text h⟩

/-! ## External ids -/

namespace ExternalIds

variable {ids : ExternalIds} {key value : String} {es pairs : List (String × String)}

/-- The written form of a bag. -/
def form (ids : ExternalIds) : Form := .leaf ids.toValue

theorem insertEntry_perm (h : key ∉ es.map Prod.fst) :
    (insertEntry key value es).Perm ((key, value) :: es) := by
  obtain ⟨before, after, hinsert, rfl | ⟨old, rfl⟩⟩ := insertEntry_split key value es
  · rw [hinsert]
    exact List.perm_middle
  · exact absurd (by simp) h

/-- Pairs with keys of their own are all there after they have been stored. -/
theorem foldl_insert_perm (h : ((ids.entries ++ pairs).map Prod.fst).Nodup) :
    (pairs.foldl (fun ids e => ids.insert e.1 e.2) ids).entries.Perm (ids.entries ++ pairs) := by
  induction pairs generalizing ids with
  | nil => simp
  | cons e rest ih =>
    have hperm : (ids.entries ++ e :: rest).Perm (e :: (ids.entries ++ rest)) :=
      List.perm_middle
    have hnodup := (hperm.map Prod.fst).nodup_iff.mp h
    have hfresh : e.1 ∉ ids.entries.map Prod.fst := fun hmem =>
      (List.nodup_cons.mp hnodup).1 (List.map_append ▸ List.mem_append_left _ hmem)
    have hinsert : ((ids.insert e.1 e.2).entries ++ rest).Perm (e :: (ids.entries ++ rest)) :=
      (insertEntry_perm hfresh).append_right rest
    have hrest := ih ((hinsert.map Prod.fst).nodup_iff.mpr hnodup)
    exact hrest.trans (hinsert.trans hperm.symm)

/-- The entries of a bag make that bag in whatever order they come. -/
theorem ofEntries_of_perm (h : pairs.Perm ids.entries) : ofEntries pairs = ids := by
  have hnodup : (pairs.map Prod.fst).Nodup := (h.map Prod.fst).nodup_iff.mpr ids.keys_nodup
  have hstored : (ofEntries pairs).entries.Perm pairs := foldl_insert_perm hnodup
  exact eq_of_perm (hstored.trans h)

/-- A bag is read back with its entries in any order. -/
theorem reads (ids : ExternalIds) : Reads ids.form decode ids := by
  have hread {given : List (String × Value)}
      (hperm : given.Perm (ids.entries.map fun e => (e.1, .text e.2))) :
      decode (.record given) = some ids := by
    let text (v : Value) : String := (Decode.text v).getD ""
    have hentries : ∀ f ∈ given, ((Decode.text f.2).map fun s => (f.1, s)) =
        some (f.1, text f.2) := by
      intro f hf
      obtain ⟨e, -, rfl⟩ := List.mem_map.mp (hperm.subset hf)
      rfl
    have hback : (given.map fun f => (f.1, text f.2)).Perm ids.entries := by
      have := hperm.map fun f => (f.1, text f.2)
      simpa [Function.comp_def, text, Decode.text] using this
    simp only [decode, mapM_eq_map hentries, Option.map_some, ofEntries_of_perm hback]
  intro v hv
  cases hv with
  | leaf => exact hread (.refl _)
  | table hperm => exact hread hperm

/-- The entries of a bag are no declared fields, so none of them is marked. -/
theorem readBack (ids : ExternalIds) : ReadBack form decode ids :=
  ⟨ids.reads.value, ids.reads, fun _ h => Form.noConfusion h⟩

end ExternalIds

end MediaRefresh
