import Mathlib.Data.List.Nodup
import MediaRefresh.Value.Decode
import MediaRefresh.Value.Form

/-!
# Values: reading redrawn documents

A reader that looks fields up by name, passes over the names that it does not know and takes
a missing marked field for its default cannot tell a document from a redrawn one.  `Reads`
is that property of a reader at one form; it is shown here for the parts that records are
made of.  A `Row` is one field of a record together with what is known of its reader, and
`readBack_of_rows` reads a record back from its rows.
-/

set_option autoImplicit false

namespace MediaRefresh

variable {α β : Type} {name : String} {mark : Bool} {f : Form} {a : α} {read : Decoder α}
  {given kept unknown : List (String × Value)} {fields : List (String × Bool × Form)}

namespace Form

/-! ## The document itself -/

mutual

/-- A document counts as redrawn when nothing is changed. -/
theorem redrawn_value : ∀ f : Form, f.Redrawn f.value
  | .leaf v => .leaf v
  | .list items => .list (redrawnAll_values items)
  | .record fields => .record (redrawnFields_values fields) (List.forall_mem_nil _)
      (List.append_nil _ ▸ .refl _)

theorem redrawnAll_values : ∀ items : List Form, RedrawnAll items (values items)
  | [] => .nil
  | f :: rest => .cons (redrawn_value f) (redrawnAll_values rest)

theorem redrawnFields_values :
    ∀ fields : List (String × Bool × Form), RedrawnFields fields (fieldValues fields)
  | [] => .nil
  | (_, _, f) :: rest => .keep (redrawn_value f) (redrawnFields_values rest)

end

/-! ## Finding a field -/

theorem mem_of_lookup {v : Value} (h : given.lookup name = some v) : (name, v) ∈ given := by
  obtain ⟨before, after, rfl, -⟩ := List.lookup_eq_some_iff.mp h
  simp

/-- A value that is the only one under its name is found. -/
theorem lookup_eq_some_iff_mem (hunique : ∀ v w, (name, v) ∈ given → (name, w) ∈ given → v = w)
    (v : Value) : given.lookup name = some v ↔ (name, v) ∈ given := by
  refine ⟨mem_of_lookup, fun hmem => ?_⟩
  cases hfound : given.lookup name with
  | none => exact absurd (List.lookup_eq_none_iff.mp hfound _ hmem) (by simp)
  | some w => rw [hunique w v (mem_of_lookup hfound) hmem]

/-- Neither the order of the fields nor the unknown ones matter to what is found under a name. -/
theorem lookup_redrawn (hperm : given.Perm (kept ++ unknown)) (hkept : (kept.map Prod.fst).Nodup)
    (hunknown : ∀ u ∈ unknown, u.1 ≠ name) : given.lookup name = kept.lookup name := by
  have huniqueKept : ∀ v w, (name, v) ∈ kept → (name, w) ∈ kept → v = w := fun v w hv hw =>
    congrArg Prod.snd (List.inj_on_of_nodup_map hkept hv hw rfl)
  have hmem (v : Value) : (name, v) ∈ given ↔ (name, v) ∈ kept := by
    rw [hperm.mem_iff, List.mem_append, or_iff_left]
    exact fun hv => hunknown _ hv rfl
  have huniqueGiven : ∀ v w, (name, v) ∈ given → (name, w) ∈ given → v = w := by
    simpa only [hmem] using huniqueKept
  exact Option.ext fun v => by
    rw [lookup_eq_some_iff_mem huniqueGiven, lookup_eq_some_iff_mem huniqueKept, hmem]

theorem RedrawnFields.names_sublist (h : RedrawnFields fields kept) :
    (kept.map Prod.fst).Sublist (fields.map Prod.fst) := by
  induction fields generalizing kept with
  | nil =>
    cases h
    exact List.nil_sublist _
  | cons field rest ih =>
    cases h with
    | keep _ hrest => exact (ih hrest).cons_cons _
    | leaveOut hrest => exact (ih hrest).cons _

/-- What the fields of a redrawn record hold in the place of one field of the form. -/
def Holds (given : List (String × Value)) (field : String × Bool × Form) : Prop :=
  (∃ v, given.lookup field.1 = some v ∧ field.2.2.Redrawn v) ∨
    (given.lookup field.1 = none ∧ field.2.1 = true)

theorem Holds.found_or_missing (h : Holds given (name, mark, f)) :
    (∃ v, given.lookup name = some v ∧ f.Redrawn v) ∨
      (given.lookup name = none ∧ mark = true) := h

/-- Every field of the form is found in what is kept, or is marked and not there. -/
theorem RedrawnFields.holds (h : RedrawnFields fields kept)
    (hnodup : (fields.map Prod.fst).Nodup) : ∀ field ∈ fields, Holds kept field := by
  induction fields generalizing kept with
  | nil => simp
  | cons field rest ih =>
    obtain ⟨hfresh, hrestNodup⟩ := List.nodup_cons.mp hnodup
    intro field' hfield'
    cases h with
    | @keep name _ _ _ _ _ hv hrest =>
      rcases List.mem_cons.mp hfield' with rfl | hfield'
      · exact Or.inl ⟨_, by simp, hv⟩
      · have hmem : field'.1 ∈ rest.map Prod.fst := List.mem_map_of_mem hfield'
        have hne : field'.1 ≠ name := ne_of_mem_of_not_mem hmem hfresh
        have hholds := ih hrest hrestNodup field' hfield'
        unfold Holds at hholds ⊢
        rwa [List.lookup_cons, beq_false_of_ne hne]
    | leaveOut hrest =>
      rcases List.mem_cons.mp hfield' with rfl | hfield'
      · refine Or.inr ⟨List.lookup_eq_none_iff.mpr fun e he => ?_, rfl⟩
        have hmem := hrest.names_sublist.subset (List.mem_map_of_mem he)
        exact bne_iff_ne.mpr (ne_of_mem_of_not_mem hmem hfresh).symm
      · exact ih hrest hrestNodup field' hfield'

/-! ## Readers -/

/-- Every redrawn document of the form `f` is read as `a`. -/
def Reads (f : Form) (read : Decoder α) (a : α) : Prop := ∀ v, f.Redrawn v → read v = some a

theorem Reads.value (h : Reads f read a) : read f.value = some a := h _ f.redrawn_value

/-- A record is read as `a` if that follows from what its fields hold. -/
theorem reads_record (hnodup : (fields.map Prod.fst).Nodup)
    (h : ∀ given, (∀ field ∈ fields, Holds given field) → read (.record given) = some a) :
    Reads (.record fields) read a := by
  intro v hv
  cases hv with
  | @record _ _ unknown _ hkept hunknown hperm =>
    refine h _ fun field hfield => ?_
    have hfresh : ∀ u ∈ unknown, u.1 ≠ field.1 := fun u hu heq =>
      hunknown u hu (heq ▸ List.mem_map_of_mem hfield)
    have hlookup := lookup_redrawn hperm (hkept.names_sublist.nodup hnodup) hfresh
    have hholds := hkept.holds hnodup field hfield
    unfold Holds at hholds ⊢
    rwa [hlookup]

theorem reads_list {write : β → Form} {item : Decoder β} {bs : List β}
    (h : ∀ b ∈ bs, Reads (write b) item b) :
    Reads (.list (bs.map write)) (Decode.list item) bs := by
  intro v hv
  cases hv with
  | @list _ vs hall =>
    change vs.mapM item = some bs
    induction bs generalizing vs with
    | nil =>
      cases hall
      rfl
    | cons b rest ih =>
      cases hall with
      | cons hb hrest =>
        have hhead := h b List.mem_cons_self _ hb
        have htail := ih (fun b hb => h b (List.mem_cons_of_mem _ hb)) hrest
        rw [List.mapM_cons, hhead, htail]
        rfl

/-! ## Parts without records -/

/-- Whether a node is something else than a record or `null`. -/
def plain : Value → Bool
  | .null | .record _ => false
  | _ => true

/-- The node `v` is plain and read as `a`. -/
structure Stands (v : Value) (read : Decoder α) (a : α) : Prop where
  plain : plain v = true
  read : read v = some a

/-- Nothing in a plain node can be redrawn. -/
theorem Stands.redrawn_eq {v w : Value} (h : Stands v read a) (hw : Redrawn (.leaf v) w) :
    w = v := by
  cases hw with
  | leaf => rfl
  | table => exact absurd h.plain Bool.false_ne_true

theorem Stands.reads {v : Value} (h : Stands v read a) : Reads (.leaf v) read a :=
  fun _ hw => h.redrawn_eq hw ▸ h.read

theorem mapM_eq_map {γ : Type} {g : β → Option γ} {k : β → γ} {bs : List β}
    (h : ∀ b ∈ bs, g b = some (k b)) : bs.mapM g = some (bs.map k) := by
  induction bs with
  | nil => rfl
  | cons b rest ih =>
    have htail := ih fun b hb => h b (List.mem_cons_of_mem _ hb)
    rw [List.mapM_cons, h b List.mem_cons_self, htail]
    rfl

theorem stands_list {write : β → Value} {item : Decoder β} {bs : List β}
    (h : ∀ b ∈ bs, Stands (write b) item b) :
    Stands (.list (bs.map write)) (Decode.list item) bs := by
  refine ⟨rfl, ?_⟩
  have hread : ∀ b ∈ bs, (item ∘ write) b = some (id b) := fun b hb => (h b hb).read
  change (bs.map write).mapM item = some bs
  rw [List.mapM_map, mapM_eq_map hread, List.map_id]

theorem stands_text (s : String) : Stands (.text s) Decode.text s := ⟨rfl, rfl⟩

theorem stands_bool (b : Bool) : Stands (.bool b) Decode.bool b := ⟨rfl, rfl⟩

theorem stands_texts (names : List String) :
    Stands (.list (names.map .text)) Decode.texts names :=
  stands_list fun s _ => stands_text s

/-- The name of an alternative is read as that alternative, whatever the dialect. -/
theorem stands_named (d : Dialect) {all : List β} {name : β → String} {b : β} (hb : b ∈ all)
    (hnodup : (all.map name).Nodup) : Stands (.text (name b)) (Decode.named d all name) b := by
  refine ⟨rfl, ?_⟩
  change (all.find? fun c => name c == name b) = some b
  cases hfound : all.find? fun c => name c == name b with
  | none => exact absurd (List.find?_eq_none.mp hfound b hb) (by simp)
  | some c =>
    have hname : name c = name b := by simpa using List.find?_some hfound
    rw [List.inj_on_of_nodup_map hnodup (List.mem_of_find?_eq_some hfound) hb hname]

end Form

/-! ## Fields -/

/-- A reader of a record goes on with each field that it has found. -/
theorem bind_eq_some_iff {o : Option α} {step : α → Option β} {b : β} :
    (o >>= step) = some b ↔ ∃ a, o = some a ∧ step a = some b :=
  Option.bind_eq_some_iff

namespace Fields

/-- The fields of a record by names. -/
def named (given : List (String × Value)) : Fields :=
  ⟨fun name => match given.lookup name with | some v => .given v | none => .missing⟩

theorem of?_record {d : Dialect} {names : List String} :
    of? d names (.record given) = some (named given) := rfl

theorem slot_of_lookup {v : Value} (h : given.lookup name = some v) :
    (named given).slot name = .given v := by
  simp [named, h]

theorem slot_of_missing (h : given.lookup name = none) : (named given).slot name = .missing := by
  simp [named, h]

/-- By names an optional field is the same with and without a declared default. -/
@[simp] theorem optionalDefaulted_named :
    (named given).optionalDefaulted name read = (named given).optional name read := by
  cases hlookup : given.lookup name with
  | none => simp only [optionalDefaulted, optional, slot_of_missing hlookup]
  | some v =>
    simp only [optionalDefaulted, optional, slot_of_lookup hlookup]
    cases v <;> rfl

end Fields

/-- One field of a record that is written and read: its place in the form, and the statement
that its reader finds in `given` what the record has there. -/
structure Row where
  field : String × Bool × Form
  found : List (String × Value) → Prop
  /-- the reader finds it in every redrawn record -/
  of_holds : ∀ {given}, Form.Holds given field → found given
  /-- and finds it in none that is without the field, unless the field is marked -/
  marked : ∀ {given}, found given → given.lookup field.1 = none → field.2.1 = true

namespace Row

open Form Fields

/-- A field that must be there. -/
def required (name : String) (hf : Reads f read a) : Row where
  field := Form.always name f
  found given := (named given).required name read = some a
  of_holds h := by
    rcases h.found_or_missing with ⟨v, hlookup, hv⟩ | ⟨-, hmark⟩
    · simp only [Fields.required, slot_of_lookup hlookup]
      exact hf v hv
    · exact absurd hmark Bool.false_ne_true
  marked h hlookup := by
    change List.lookup name _ = none at hlookup
    rw [Fields.required, slot_of_missing hlookup] at h
    cases h

/-- A field that may be left out when it holds the default. -/
def defaulted (name : String) {standard : α} (hf : Reads f read a)
    (hmark : mark = true ↔ a = standard) : Row where
  field := Form.defaulted name mark f
  found given := (named given).defaulted name standard read = some a
  of_holds h := by
    rcases h.found_or_missing with ⟨v, hlookup, hv⟩ | ⟨hlookup, hleft⟩
    · simp only [Fields.defaulted, slot_of_lookup hlookup]
      exact hf v hv
    · simp only [Fields.defaulted, slot_of_missing hlookup, hmark.mp hleft]
  marked h hlookup := by
    change List.lookup name _ = none at hlookup
    rw [Fields.defaulted, slot_of_missing hlookup] at h
    exact hmark.mpr (Option.some.inj h).symm

theorem optional_of_plain {v : Value} (hlookup : given.lookup name = some v)
    (hplain : plain v = true) : (named given).optional name read = (read v).map some := by
  simp only [Fields.optional, slot_of_lookup hlookup]
  cases v with
  | null => exact absurd hplain Bool.false_ne_true
  | _ => rfl

/-- An optional field, which may be left out when there is nothing. -/
def optional (name : String) {write : α → Value} {o : Option α}
    (hread : ∀ a ∈ o, Stands (write a) read a) : Row where
  field := Form.optional name write o
  found given := (named given).optional name read = some o
  of_holds h := by
    cases o with
    | none =>
      rcases h.found_or_missing with ⟨v, hlookup, hv⟩ | ⟨hlookup, -⟩
      · cases hv
        simp only [Fields.optional, slot_of_lookup hlookup]
        rfl
      · simp only [Fields.optional, slot_of_missing hlookup]
    | some a =>
      have hstands := hread a rfl
      rcases h.found_or_missing with ⟨v, hlookup, hv⟩ | ⟨-, hmark⟩
      · rw [hstands.redrawn_eq hv] at hlookup
        rw [optional_of_plain hlookup hstands.plain, hstands.read, Option.map_some]
      · exact absurd hmark Bool.false_ne_true
  marked h hlookup := by
    change List.lookup name _ = none at hlookup
    rw [Fields.optional, slot_of_missing hlookup] at h
    cases h
    rfl

/-- A truth value that may be left out when it is false. -/
def flag (name : String) (b : Bool) : Row :=
  defaulted name (stands_bool b).reads (show (!b) = true ↔ b = false by simp)

/-- A list that may be left out when it is empty. -/
def list (name : String) {as : List α} {read : Decoder (List α)} (hf : Reads f read as) : Row :=
  defaulted name hf List.isEmpty_iff

/-- A text that says which alternative the record is of. -/
def tag (name s : String) : Row where
  field := Form.text name s
  found given := given.lookup name = some (.text s)
  of_holds h := by
    rcases h.found_or_missing with ⟨v, hlookup, hv⟩ | ⟨-, hmark⟩
    · rwa [(stands_text s).redrawn_eq hv] at hlookup
    · exact absurd hmark Bool.false_ne_true
  marked h hlookup := absurd (hlookup.symm.trans h) (Option.some_ne_none _).symm

/-- Every row is found. -/
def AllFound (given : List (String × Value)) : List Row → Prop
  | [] => True
  | row :: rest => row.found given ∧ AllFound given rest

theorem allFound_iff {rows : List Row} : AllFound given rows ↔ ∀ row ∈ rows, row.found given := by
  induction rows with
  | nil => simp [AllFound]
  | cons row rest ih => simp [AllFound, ih]

end Row

/-! ## Records -/

namespace Form

/-- The document of a record without one of its fields. -/
def without (name : String) (fields : List (String × Bool × Form)) : Value :=
  .record ((fieldValues fields).filter fun e => e.1 != name)

/-- A document without a marked field is a redrawn one. -/
theorem redrawn_without (h : ∀ field ∈ fields, field.1 = name → field.2.1 = true) :
    Redrawn (.record fields) (without name fields) := by
  have hkept : RedrawnFields fields ((fieldValues fields).filter fun e => e.1 != name) := by
    induction fields with
    | nil => exact .nil
    | cons field rest ih =>
      obtain ⟨n, mark, f⟩ := field
      obtain ⟨hfield, hrest⟩ := List.forall_mem_cons.mp h
      by_cases hn : n = name
      · obtain rfl : mark = true := hfield hn
        simpa [fieldValues, hn] using .leaveOut (ih hrest)
      · simpa [fieldValues, hn] using .keep f.redrawn_value (ih hrest)
  exact .record hkept (List.forall_mem_nil _) (List.append_nil _ ▸ .refl _)

/-- `a` is read back: from its document as it is written, and from every document that is this
one redrawn.  If the document is a record, `a` is read without a field of it exactly if that
field is marked. -/
structure ReadBack (form : α → Form) (read : Decoder α) (a : α) : Prop where
  written : read (form a).value = some a
  redrawn : Reads (form a) read a
  marked : ∀ fields, form a = .record fields → ∀ field ∈ fields,
    (field.2.1 = true ↔ read (without field.1 fields) = some a)

variable {form : α → Form}

/-- A record is read back if it is read exactly where each of its fields is found. -/
theorem readBack_of_rows (rows : List Row) (hform : form a = .record (rows.map Row.field))
    (hnodup : ((rows.map Row.field).map Prod.fst).Nodup)
    (hread : ∀ given, read (.record given) = some a ↔ Row.AllFound given rows) :
    ReadBack form read a := by
  have hreads : Reads (form a) read a := by
    rw [hform]
    refine reads_record hnodup fun given hgiven => (hread given).mpr ?_
    exact Row.allFound_iff.mpr fun row hrow => row.of_holds (hgiven _ (List.mem_map_of_mem hrow))
  refine ⟨hreads.value, hreads, fun fields hfields field hfield => ?_⟩
  obtain rfl : rows.map Row.field = fields := Form.record.inj (hform.symm.trans hfields)
  constructor
  · intro hmark
    rw [hform] at hreads
    refine hreads _ (redrawn_without fun other hother hname => ?_)
    rwa [List.inj_on_of_nodup_map hnodup hother hfield hname]
  · intro hwithout
    obtain ⟨row, hrow, rfl⟩ := List.mem_map.mp hfield
    have hfound := Row.allFound_iff.mp ((hread _).mp hwithout) row hrow
    refine row.marked hfound (List.lookup_eq_none_iff.mpr fun e he => ?_)
    exact bne_iff_ne.mpr (bne_iff_ne.mp (List.mem_filter.mp he).2).symm

end Form

end MediaRefresh
