import MediaRefresh.Item.ExternalIds

/-!
# External ids: what a lookup finds after a change

A bag is read through `entry?`, the first entry under a key, and through `get`, the id
of that entry.  Storing an id under a key changes what is found under that key, in any
case, and nothing else.
-/

set_option autoImplicit false

namespace MediaRefresh

theorem Text.same_congr {a b : String} (h : Text.same a b = true) (c : String) :
    Text.same c a = Text.same c b := by
  rw [Text.same_iff] at h
  unfold Text.same
  rw [h]

theorem Text.ne_empty_of_same {v w : String} (h : Text.same v w = true) (hv : v ≠ "") :
    w ≠ "" := by
  rintro rfl
  rw [Text.same_iff] at h
  unfold Text.fold at h
  apply hv
  have hchars := congrArg String.toList h
  simpa using hchars

/-- An inserted entry stands in the place of the one with its key, or between others. -/
theorem insertEntry_split (key value : String) (es : List (String × String)) :
    ∃ before after, insertEntry key value es = before ++ (key, value) :: after ∧
      (es = before ++ after ∨ ∃ old, es = before ++ (key, old) :: after) := by
  induction es with
  | nil => exact ⟨[], [], rfl, Or.inl rfl⟩
  | cons e rest ih =>
    obtain ⟨k, v⟩ := e
    unfold insertEntry
    split
    · exact ⟨[], (k, v) :: rest, rfl, Or.inl rfl⟩
    · split
      · rename_i heq
        exact ⟨[], rest, rfl, Or.inr ⟨v, by rw [heq]; rfl⟩⟩
      · obtain ⟨before, after, hinsert, hes⟩ := ih
        refine ⟨(k, v) :: before, after, by rw [hinsert]; rfl, ?_⟩
        obtain hes | ⟨old, hes⟩ := hes
        · exact Or.inl (by rw [hes]; rfl)
        · exact Or.inr ⟨old, by rw [hes]; rfl⟩

namespace ExternalIds

variable {ids : ExternalIds} {key k value : String}

/-- The spelling under which an id is stored: the one that is there, or the given one. -/
def spelling (ids : ExternalIds) (key : String) : String :=
  ((ids.entry? key).map Prod.fst).getD key

/-- The ids under a key, in any case and in order; empty ones do not count. -/
def idsUnder (key : String) (es : List (String × String)) : List String :=
  (es.filter fun e => Text.same e.1 key && e.2 ≠ "").map Prod.snd

/-- No two keys differ only in case. -/
def Unambiguous (ids : ExternalIds) : Prop :=
  ids.entries.Pairwise fun a b => Text.same a.1 b.1 = false

instance (ids : ExternalIds) : Decidable ids.Unambiguous :=
  inferInstanceAs (Decidable (ids.entries.Pairwise _))

/-! ## Keys in any case -/

theorem entry?_congr (ids : ExternalIds) (h : Text.same key k = true) :
    ids.entry? key = ids.entry? k := by
  unfold entry?
  congr 1
  funext e
  exact Text.same_congr h e.1

theorem get_congr (ids : ExternalIds) (h : Text.same key k = true) : ids.get key = ids.get k := by
  unfold get
  rw [ids.entry?_congr h]

theorem mem_and_same_of_entry?_eq {e : String × String} (h : ids.entry? key = some e) :
    e ∈ ids.entries ∧ Text.same e.1 key = true :=
  ⟨List.mem_of_find?_eq_some h,
    List.find?_some (p := fun e : String × String => Text.same e.1 key) h⟩

theorem contains_eq_isSome (ids : ExternalIds) (key : String) :
    ids.contains key = (ids.entry? key).isSome := by
  unfold contains entry?
  rw [Bool.eq_iff_iff, List.any_eq_true, List.find?_isSome]

theorem contains_congr (ids : ExternalIds) (h : Text.same key k = true) :
    ids.contains key = ids.contains k := by
  rw [contains_eq_isSome, contains_eq_isSome, ids.entry?_congr h]

theorem entry?_eq_none_iff : ids.entry? key = none ↔ ids.contains key = false := by
  rw [contains_eq_isSome, Option.isSome_eq_false_iff, Option.isNone_iff_eq_none]

theorem spelling_of_entry?_eq {e : String × String} (h : ids.entry? key = some e) :
    ids.spelling key = e.1 := by
  unfold spelling
  rw [h]
  rfl

theorem spelling_of_missing (h : ids.contains key = false) : ids.spelling key = key := by
  unfold spelling
  rw [entry?_eq_none_iff.mpr h]
  rfl

theorem same_spelling (ids : ExternalIds) (key : String) :
    Text.same (ids.spelling key) key = true := by
  cases hentry : ids.entry? key with
  | none => rw [spelling_of_missing (entry?_eq_none_iff.mp hentry), Text.same_refl]
  | some e => rw [spelling_of_entry?_eq hentry, (mem_and_same_of_entry?_eq hentry).2]

/-! ## Bags with the same entries -/

theorem keys_nodup (ids : ExternalIds) : (ids.entries.map Prod.fst).Nodup :=
  List.pairwise_map.mpr (ids.sorted.imp fun h => String.ne_of_lt h)

theorem entries_nodup (ids : ExternalIds) : ids.entries.Nodup :=
  ids.sorted.imp fun h heq => String.ne_of_lt h (congrArg Prod.fst heq)

theorem eq_of_perm {other : ExternalIds} (h : ids.entries.Perm other.entries) : ids = other := by
  have hentries : ids.entries = other.entries := h.eq_of_pairwise
    (fun a b _ _ hab hba => absurd (String.lt_trans hab hba) (String.lt_irrefl _))
    ids.sorted other.sorted
  cases ids
  cases other
  cases hentries
  rfl

theorem eq_of_mem_iff {other : ExternalIds} (h : ∀ e, e ∈ ids.entries ↔ e ∈ other.entries) :
    ids = other :=
  eq_of_perm ((List.perm_ext_iff_of_nodup ids.entries_nodup other.entries_nodup).mpr h)

/-! ## Storing an id -/

/-- In front of the entry that `set` writes there is none under the same key: it would
have been found first and given the spelling, which stands only once. -/
theorem not_same_of_before {before after : List (String × String)}
    (hset : (ids.set key value).entries = before ++ (ids.spelling key, value) :: after)
    (hids : ids.entries = before ++ after ∨
      ∃ old, ids.entries = before ++ (ids.spelling key, old) :: after) :
    ∀ e ∈ before, Text.same e.1 key = false := by
  intro e he
  refine Bool.eq_false_iff.mpr fun hsame => ?_
  have hfound : (before.find? fun e => Text.same e.1 key).isSome = true :=
    List.find?_isSome.mpr ⟨e, he, hsame⟩
  obtain ⟨first, hfirst⟩ := Option.isSome_iff_exists.mp hfound
  have hentry : ids.entry? key = some first := by
    unfold entry?
    obtain hids | ⟨old, hids⟩ := hids
    · rw [hids, List.find?_append, hfirst, Option.some_or]
    · rw [hids, List.find?_append, hfirst, Option.some_or]
  have hsorted := (ids.set key value).sorted
  rw [hset, spelling_of_entry?_eq hentry] at hsorted
  exact String.lt_irrefl _ ((List.pairwise_append.mp hsorted).2.2 first
    (List.mem_of_find?_eq_some hfirst) (first.1, value) List.mem_cons_self)

theorem entry?_set_of_same (ids : ExternalIds) (value : String)
    (h : Text.same key k = true) :
    entry? (ids.set key value) k = some (ids.spelling key, value) := by
  obtain ⟨before, after, hset, hids⟩ := insertEntry_split (ids.spelling key) value ids.entries
  have hentries : (ids.set key value).entries = _ := hset
  have hbefore := not_same_of_before hentries hids
  have hnone : before.find? (fun e => Text.same e.1 key) = none :=
    List.find?_eq_none.mpr fun e he => by simp [hbefore e he]
  rw [← entry?_congr _ h]
  unfold entry?
  rw [hentries, List.find?_append, hnone, Option.none_or, List.find?_cons_of_pos]
  exact ids.same_spelling key

theorem entry?_set_of_not_same (ids : ExternalIds) (value : String)
    (h : Text.same key k = false) : entry? (ids.set key value) k = ids.entry? k := by
  obtain ⟨before, after, hset, hids⟩ := insertEntry_split (ids.spelling key) value ids.entries
  have hentries : (ids.set key value).entries = _ := hset
  have hspelling : Text.same (ids.spelling key) k = false := by
    rw [Text.same_comm, Text.same_congr (ids.same_spelling key), Text.same_comm]
    exact h
  unfold entry?
  rw [hentries]
  obtain hids | ⟨old, hids⟩ := hids
  · rw [hids]
    simp [List.find?_append, hspelling]
  · rw [hids]
    simp [List.find?_append, hspelling]

theorem get_set_of_same (ids : ExternalIds) (h : Text.same key k = true) (hvalue : value ≠ "") :
    (ids.set key value).get k = some value := by
  unfold get
  rw [ids.entry?_set_of_same value h]
  simp [hvalue]

theorem get_set_of_not_same (ids : ExternalIds) (value : String) (h : Text.same key k = false) :
    (ids.set key value).get k = ids.get k := by
  unfold get
  rw [ids.entry?_set_of_not_same value h]

/-! ## The ids under a key -/

theorem idsUnder_append (key : String) (es more : List (String × String)) :
    idsUnder key (es ++ more) = idsUnder key es ++ idsUnder key more := by
  unfold idsUnder
  rw [List.filter_append, List.map_append]

theorem idsUnder_cons_of_same {e : String × String} {es : List (String × String)}
    (h : Text.same e.1 key = true) (hvalue : e.2 ≠ "") :
    idsUnder key (e :: es) = e.2 :: idsUnder key es := by
  unfold idsUnder
  rw [List.filter_cons_of_pos (by simp [h, hvalue]), List.map_cons]

theorem idsUnder_cons_of_not_same {e : String × String} {es : List (String × String)}
    (h : Text.same e.1 key = false ∨ e.2 = "") : idsUnder key (e :: es) = idsUnder key es := by
  unfold idsUnder
  rw [List.filter_cons_of_neg]
  obtain h | h := h
  · simp [h]
  · simp [h]

/-! ## Merging what is missing -/

theorem contains_of_mem {e : String × String} (h : e ∈ ids.entries) :
    ids.contains e.1 = true :=
  List.any_eq_true.mpr ⟨e, h, Text.same_refl e.1⟩

/-- A bag that entries are merged into is asked before them. -/
theorem entry?_mergeEntries (ids : ExternalIds) (es : List (String × String)) (key : String) :
    entry? (ids.mergeEntries es) key =
      (ids.entry? key).or (es.find? fun e => Text.same e.1 key) := by
  induction es generalizing ids with
  | nil => exact Option.or_none.symm
  | cons e rest ih =>
    have hstep : ids.mergeEntries (e :: rest) =
        (if ids.contains e.1 then ids else ids.set e.1 e.2).mergeEntries rest := rfl
    rw [hstep, ih]
    cases hsame : Text.same e.1 key with
    | false =>
      rw [List.find?_cons_of_neg (by simp [hsame])]
      split
      · rfl
      · rw [ids.entry?_set_of_not_same e.2 hsame]
    | true =>
      rw [List.find?_cons_of_pos (by exact hsame)]
      split
      · rename_i hcontains
        rw [ids.contains_congr hsame, contains_eq_isSome] at hcontains
        obtain ⟨found, hfound⟩ := Option.isSome_iff_exists.mp hcontains
        rw [hfound, Option.some_or, Option.some_or]
      · rename_i hmissing
        rw [Bool.not_eq_true] at hmissing
        rw [ids.entry?_set_of_same e.2 hsame, spelling_of_missing hmissing, Option.some_or,
          ← ids.entry?_congr hsame, entry?_eq_none_iff.mpr hmissing, Option.none_or]

theorem contains_eq_false_iff :
    ids.contains key = false ↔ ∀ e ∈ ids.entries, Text.same e.1 key = false := by
  unfold contains
  simp only [List.any_eq_false, Bool.not_eq_true]

/-- An id stored under a key that is missing stands between the entries that are there. -/
theorem entries_set_of_missing (value : String) (h : ids.contains key = false) :
    ∃ before after, ids.entries = before ++ after ∧
      (ids.set key value).entries = before ++ (key, value) :: after := by
  obtain ⟨before, after, hset, hids⟩ := insertEntry_split (ids.spelling key) value ids.entries
  have hentries : (ids.set key value).entries = before ++ (ids.spelling key, value) :: after := hset
  rw [spelling_of_missing h] at hentries hids
  rcases hids with hids | ⟨old, hids⟩
  · exact ⟨before, after, hids, hentries⟩
  · have hthere : ids.contains key = true :=
      contains_of_mem (e := (key, old)) (by rw [hids]; simp)
    rw [h] at hthere
    cases hthere

theorem mem_set_of_missing {e : String × String} (value : String)
    (h : ids.contains key = false) :
    e ∈ (ids.set key value).entries ↔ e ∈ ids.entries ∨ e = (key, value) := by
  obtain ⟨before, after, hentries, hset⟩ := entries_set_of_missing value h
  rw [hset, hentries, List.mem_append, List.mem_cons, List.mem_append, or_left_comm,
    or_comm (a := e = _)]

/-- What every bag has that is made from one with the property by storing an id under a key
that is missing is kept when entries are merged into it. -/
theorem mergeEntries_induction {P : ExternalIds → Prop} (h : P ids)
    (hset : ∀ (ids : ExternalIds) (key value : String), P ids → ids.contains key = false →
      P (ids.set key value)) (es : List (String × String)) : P (ids.mergeEntries es) := by
  refine List.foldlRecOn (motive := P) es _ h fun ids hids e _ => ?_
  split
  · exact hids
  · rename_i hmissing
    exact hset ids e.1 e.2 hids (by simpa using hmissing)

theorem subset_mergeMissing (ids other : ExternalIds) :
    ids.entries ⊆ (ids.mergeMissing other).entries :=
  mergeEntries_induction (P := fun merged => ids.entries ⊆ merged.entries) (fun _ he => he)
    (fun _ _ value hsub hmissing _ he => (mem_set_of_missing value hmissing).mpr (.inl (hsub he)))
    other.entries

theorem unambiguous_iff : ids.Unambiguous ↔
    (ids.entries.map Prod.fst).Pairwise fun a b => Text.same a b = false :=
  (List.pairwise_map (f := Prod.fst) (R := fun a b => Text.same a b = false)).symm

/-- An id that is stored under a key that is there does not change the keys. -/
theorem keys_set_of_contains (value : String) (h : ids.contains key = true) :
    (ids.set key value).entries.map Prod.fst = ids.entries.map Prod.fst := by
  rw [contains_eq_isSome, Option.isSome_iff_exists] at h
  obtain ⟨first, hfirst⟩ := h
  obtain ⟨before, after, hset, hids⟩ := insertEntry_split (ids.spelling key) value ids.entries
  have hentries : (ids.set key value).entries = before ++ (ids.spelling key, value) :: after := hset
  rcases hids with hids | ⟨old, hids⟩
  · -- the spelling stands among the entries already, and would stand twice behind this
    have hsorted := (ids.set key value).sorted
    have hmem : first ∈ before ++ after := hids ▸ (mem_and_same_of_entry?_eq hfirst).1
    rw [hentries, spelling_of_entry?_eq hfirst, List.pairwise_append, List.pairwise_cons] at hsorted
    rcases List.mem_append.mp hmem with hmem | hmem
    · exact absurd (hsorted.2.2 first hmem _ List.mem_cons_self) (String.lt_irrefl _)
    · exact absurd (hsorted.2.1.1 first hmem) (String.lt_irrefl _)
  · rw [hentries, hids, List.map_append, List.map_append, List.map_cons, List.map_cons]

theorem Unambiguous.set (h : ids.Unambiguous) (key value : String) :
    (ids.set key value).Unambiguous := by
  cases hcontains : ids.contains key with
  | true =>
    rw [unambiguous_iff] at h ⊢
    rw [keys_set_of_contains value hcontains]
    exact h
  | false =>
    have hothers := contains_eq_false_iff.mp hcontains
    obtain ⟨before, after, hentries, hset⟩ := entries_set_of_missing value hcontains
    unfold Unambiguous at h ⊢
    rw [hentries, List.pairwise_append] at h
    obtain ⟨hbefore, hafter, hacross⟩ := h
    rw [hset, List.pairwise_append, List.pairwise_cons]
    refine ⟨hbefore, ⟨?_, hafter⟩, ?_⟩
    · intro e he
      rw [Text.same_comm]
      exact hothers e (by rw [hentries]; exact List.mem_append_right before he)
    · intro b hb e he
      rcases List.mem_cons.mp he with rfl | he
      · exact hothers b (by rw [hentries]; exact List.mem_append_left after hb)
      · exact hacross b hb e he

theorem Unambiguous.mergeMissing (h : ids.Unambiguous) (other : ExternalIds) :
    (ids.mergeMissing other).Unambiguous :=
  mergeEntries_induction h (fun _ key value hmerged _ => hmerged.set key value) other.entries

theorem entry?_mergeMissing (ids other : ExternalIds) (key : String) :
    entry? (ids.mergeMissing other) key = (ids.entry? key).or (other.entry? key) :=
  ids.entry?_mergeEntries other.entries key

/-- An id that is there is kept, and under a key that is missing the other bag answers. -/
theorem get_mergeMissing (ids other : ExternalIds) (key : String) :
    (ids.mergeMissing other).get key =
      if ids.contains key then ids.get key else other.get key := by
  unfold get
  rw [entry?_mergeMissing, contains_eq_isSome]
  cases ids.entry? key with
  | none => rfl
  | some e => rfl

theorem contains_mergeMissing (ids other : ExternalIds) (key : String) :
    (ids.mergeMissing other).contains key = (ids.contains key || other.contains key) := by
  simp only [contains_eq_isSome, entry?_mergeMissing]
  cases ids.entry? key with
  | none => rfl
  | some e => rfl

/-- Merging entries whose keys are all there adds nothing. -/
theorem mergeMissing_eq_self_iff {ids other : ExternalIds} :
    ids.mergeMissing other = ids ↔ ∀ e ∈ other.entries, ids.contains e.1 = true := by
  constructor
  · intro hsame e he
    have hcontains := ids.contains_mergeMissing other e.1
    rw [hsame, contains_of_mem he, Bool.or_true] at hcontains
    exact hcontains
  · intro hall
    refine List.foldlRecOn (motive := fun merged => merged = ids) other.entries _ rfl ?_
    rintro merged rfl e he
    rw [if_pos (hall e he)]

theorem get_eq_some_iff :
    ids.get key = some value ↔ ∃ e, ids.entry? key = some e ∧ e.2 = value ∧ value ≠ "" := by
  unfold get
  rw [Option.filter_eq_some_iff, Option.map_eq_some_iff, decide_eq_true_iff]
  simp only [← and_assoc, exists_and_right]

/-- A bag that answers under a key has an entry with the answer. -/
theorem exists_entry_of_get (h : ids.get key = some value) :
    ∃ e ∈ ids.entries, Text.same e.1 key = true ∧ e.2 = value ∧ value ≠ "" := by
  obtain ⟨e, hentry, hvalue⟩ := get_eq_some_iff.mp h
  obtain ⟨he, hsame⟩ := mem_and_same_of_entry?_eq hentry
  exact ⟨e, he, hsame, hvalue⟩

theorem contains_of_get (h : ids.get key = some value) : ids.contains key = true := by
  obtain ⟨e, he, hsame, -⟩ := exists_entry_of_get h
  exact List.any_eq_true.mpr ⟨e, he, hsame⟩

theorem sharesAny_iff {other : ExternalIds} : ids.sharesAny other = true ↔
    ∃ e ∈ other.entries, ∃ id, ids.get e.1 = some id ∧ Text.same id e.2 = true := by
  unfold sharesAny
  rw [List.any_eq_true]
  refine exists_congr fun e => and_congr_right fun _ => ?_
  cases ids.get e.1 with
  | none => simp
  | some id => simp

/-! ## The first of several bags -/

/-- The id of the first entry under a key in any of several bags, empty or not. -/
def firstUnder? (key : String) (bags : List ExternalIds) : Option String :=
  bags.findSome? fun ids => (ids.entry? key).map Prod.snd

theorem firstUnder?_mergeMissing (key : String) (ids other : ExternalIds)
    (more : List ExternalIds) :
    firstUnder? key (ids.mergeMissing other :: more) = firstUnder? key (ids :: other :: more) := by
  unfold firstUnder?
  rw [List.findSome?_cons, List.findSome?_cons, List.findSome?_cons, entry?_mergeMissing]
  cases ids.entry? key with
  | none => rfl
  | some e => rfl

theorem get_eq_firstUnder? (ids : ExternalIds) (key : String) :
    ids.get key = (firstUnder? key [ids]).filter (· ≠ "") := by
  unfold firstUnder? get
  rw [List.findSome?_cons]
  cases ids.entry? key with
  | none => rfl
  | some e => rfl

/-- Of several bags the first one is asked first. -/
theorem get_eq_of_firstUnder? (bags : List ExternalIds) (h : ids.entry? key ≠ none) :
    ids.get key = (firstUnder? key (ids :: bags)).filter (· ≠ "") := by
  unfold firstUnder? ExternalIds.get
  rw [List.findSome?_cons]
  cases hentry : ids.entry? key with
  | none => exact absurd hentry h
  | some e => rfl

/-- Where the first entry under a key has an id, this is the first id under the key. -/
theorem head?_of_firstUnder? {bags : List ExternalIds} (h : firstUnder? key bags = some value)
    (hvalue : value ≠ "") :
    (bags.flatMap fun ids => idsUnder key ids.entries).head? = some value := by
  induction bags with
  | nil => cases h
  | cons ids rest ih =>
    unfold firstUnder? at h
    rw [List.findSome?_cons] at h
    rw [List.flatMap_cons, List.head?_append]
    cases hentry : ids.entry? key with
    | none =>
      rw [hentry] at h
      have hnone : idsUnder key ids.entries = [] := by
        unfold idsUnder
        rw [List.map_eq_nil_iff, List.filter_eq_nil_iff]
        intro e he hunder
        exact List.find?_eq_none.mp hentry e he (Bool.and_eq_true_iff.mp hunder).1
      rw [hnone, ih h]
      rfl
    | some e =>
      rw [hentry] at h
      obtain rfl : e.2 = value := Option.some.inj h
      obtain ⟨hsame, before, after, hsplit, hbefore⟩ := List.find?_eq_some_iff_append.mp hentry
      have hskipped : idsUnder key before = [] := by
        unfold idsUnder
        rw [List.map_eq_nil_iff, List.filter_eq_nil_iff]
        intro b hb hunder
        have hother := hbefore b hb
        rw [(Bool.and_eq_true_iff.mp hunder).1] at hother
        cases hother
      rw [hsplit, idsUnder_append, hskipped, idsUnder_cons_of_same hsame hvalue]
      rfl

theorem get_or_head?_of_firstUnder? {bags : List ExternalIds}
    (h : firstUnder? key (ids :: bags) = some value) (hvalue : value ≠ "") :
    (ids.get key).or (bags.flatMap fun ids => idsUnder key ids.entries).head? = some value := by
  cases hentry : ids.entry? key with
  | some e =>
    rw [get_eq_of_firstUnder? bags (by simp [hentry]), h]
    simp [hvalue]
  | none =>
    unfold firstUnder? at h
    rw [List.findSome?_cons, hentry] at h
    unfold ExternalIds.get
    rw [hentry, head?_of_firstUnder? h hvalue]
    rfl

/-! ## Bags without ambiguous keys -/

theorem Unambiguous.entry?_of_mem {e : String × String} (h : ids.Unambiguous)
    (he : e ∈ ids.entries) : ids.entry? e.1 = some e := by
  obtain ⟨before, after, hsplit⟩ := List.append_of_mem he
  have hpairs := h
  unfold Unambiguous at hpairs
  rw [hsplit] at hpairs
  have hnone : before.find? (fun a => Text.same a.1 e.1) = none :=
    List.find?_eq_none.mpr fun a ha => by
      simp [(List.pairwise_append.mp hpairs).2.2 a ha e List.mem_cons_self]
  unfold entry?
  rw [hsplit, List.find?_append, hnone, Option.none_or, List.find?_cons_of_pos]
  exact Text.same_refl e.1

theorem Unambiguous.get_of_mem {e : String × String} (h : ids.Unambiguous)
    (he : e ∈ ids.entries) (hvalue : e.2 ≠ "") : ids.get e.1 = some e.2 := by
  unfold get
  rw [h.entry?_of_mem he]
  simp [hvalue]

end ExternalIds

end MediaRefresh
