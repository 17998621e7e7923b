import MediaRefresh.Proofs.Refresh.Journal

/-!
# Images: what one provider supplies

Whatever its calls answer, a provider ends with a supply: images of wanted types, each type
at most once.  A failure ends it early but never takes back what has been supplied.
-/

set_option autoImplicit false

namespace MediaRefresh

open RefreshM

variable {σ : Type}

/-! ## Actions that always return -/

namespace RefreshM

variable {α β : Type} {Q : α → Prop} {R : β → Prop} {x : RefreshM σ α} {f : α → RefreshM σ β}

/-- From any world, the action returns a value, and one that satisfies `Q`. -/
def Returns (Q : α → Prop) (x : RefreshM σ α) : Prop :=
  ∀ w, ∃ a w', x w = .ok a w' ∧ Q a

namespace Returns

protected theorem pure {a : α} (h : Q a) : Returns Q (pure a : RefreshM σ α) :=
  fun w => ⟨a, w, rfl, h⟩

protected theorem bind (hx : Returns Q x) (hf : ∀ a, Q a → Returns R (f a)) :
    Returns R (x >>= f) := by
  intro w
  obtain ⟨a, mid, hrun, ha⟩ := hx w
  rw [bind_of_ok hrun]
  exact hf a ha mid

protected theorem ask {c : Call} {r : Reaction σ α} {Q : Except Failure α → Prop}
    (h : ∀ s, Q (r s).outcome) : Returns Q (ask c r) :=
  fun w => ⟨_, _, ask_apply c r w, h w.surroundings⟩

end Returns

end RefreshM

/-! ## Supplies -/

/-- The image store returns an image of the type that is asked for, or fails. -/
def Manager.StoresAsAsked (m : Manager σ) : Prop :=
  ∀ item t mediaType data s image,
    (m.host.saveImage item t mediaType data s).outcome = .ok image → image.imageType = t

namespace Supply

variable {faithful : Prop} {asked wanted : List ImageType} {s : Supply} {t : ImageType}
  {image : ItemImage}

/-- There is a type for each image, and it is that of the image if the store is faithful. -/
structure Matched (faithful : Prop) (s : Supply) : Prop where
  length_eq : s.recorded.length = s.types.length
  types_eq : faithful → s.recorded.map ItemImage.imageType = s.types

theorem matched_none : none.Matched faithful := ⟨rfl, fun _ => rfl⟩

theorem Matched.add (h : s.Matched faithful) (himage : faithful → image.imageType = t) :
    (s.add t image).Matched faithful where
  length_eq := by simp [Supply.add, h.length_eq]
  types_eq hfaithful := by simp [Supply.add, h.types_eq hfaithful, himage hfaithful]

theorem Matched.recorded_eq_nil_iff (h : s.Matched faithful) :
    s.recorded = [] ↔ s.types = [] := by
  rw [← List.length_eq_zero_iff, h.length_eq, List.length_eq_zero_iff]

/-- Of the types asked for one after the other, some were supplied. -/
structure Picked (faithful : Prop) (asked : List ImageType) (s : Supply) : Prop
    extends s.Matched faithful where
  sublist : s.types.Sublist asked

theorem picked_none : none.Picked faithful [] := ⟨matched_none, .slnil⟩

theorem Picked.stop (h : s.Picked faithful asked) (f : Failure) :
    (s.stop f).Picked faithful asked := ⟨⟨h.length_eq, h.types_eq⟩, h.sublist⟩

theorem Picked.pass (h : s.Picked faithful asked) (more : List ImageType) :
    s.Picked faithful (asked ++ more) :=
  ⟨h.toMatched, h.sublist.trans (List.sublist_append_left _ _)⟩

theorem Picked.add (h : s.Picked faithful asked) (himage : faithful → image.imageType = t) :
    (s.add t image).Picked faithful (asked ++ [t]) :=
  ⟨h.toMatched.add himage, h.sublist.append_right [t]⟩

/-- The images are of wanted types, and of each of them at most once. -/
structure Serves (faithful : Prop) (wanted : List ImageType) (s : Supply) : Prop
    extends s.Matched faithful where
  subset : s.types ⊆ wanted
  nodup : wanted.Nodup → s.types.Nodup

theorem serves_none : none.Serves faithful wanted :=
  ⟨matched_none, List.nil_subset wanted, fun _ => List.nodup_nil⟩

theorem Serves.stop (h : s.Serves faithful wanted) (f : Failure) :
    (s.stop f).Serves faithful wanted := ⟨⟨h.length_eq, h.types_eq⟩, h.subset, h.nodup⟩

theorem Picked.serves (h : s.Picked faithful wanted) : s.Serves faithful wanted :=
  ⟨h.toMatched, h.sublist.subset, h.sublist.nodup⟩

end Supply

/-! ## Local providers -/

namespace ImageProvider

variable {faithful : Prop} {wanted : List ImageType}

theorem chooseFiles_serves (images : List RemoteImage) :
    (chooseFiles wanted images).Serves faithful wanted := by
  refine List.foldlRecOn (motive := fun s : Supply => s.Serves faithful wanted) images _
    Supply.serves_none ?_
  intro s hs image _
  split
  · rename_i htaken
    obtain ⟨hwanted, hnew⟩ := Bool.and_eq_true_iff.mp htaken
    have hfresh : image.imageType ∉ s.types := by simpa using hnew
    refine ⟨hs.toMatched.add fun _ => rfl, ?_, fun hnodup => ?_⟩
    · exact List.append_subset.mpr ⟨hs.subset, by simpa using hwanted⟩
    · refine List.nodup_append.mpr ⟨hs.nodup hnodup, List.pairwise_singleton _ _, ?_⟩
      rintro a ha b hb rfl
      exact hfresh (List.mem_singleton.mp hb ▸ ha)
  · exact hs

theorem listCandidates_returns (p : ImageProvider σ) (item : Item) :
    Returns (fun _ => True) (p.listCandidates item) := by
  unfold listCandidates
  cases p.candidates with
  | none => exact .pure trivial
  | some list => exact .ask fun _ => trivial

theorem supplyFiles_returns (p : ImageProvider σ) (item : Item) :
    Returns (Supply.Serves faithful wanted) (p.supplyFiles item wanted) := by
  unfold supplyFiles
  refine .bind (p.listCandidates_returns item) fun answer _ => ?_
  cases answer with
  | ok images => exact .pure (chooseFiles_serves images)
  | error f => exact .pure (Supply.serves_none.stop f)

theorem generateImage_returns (p : ImageProvider σ) (item : Item) (t : ImageType) :
    Returns (fun _ => True) (p.generateImage item t) := by
  unfold generateImage
  cases p.generate with
  | none => exact .pure trivial
  | some make => exact .ask fun _ => trivial

theorem downloadImage_returns (p : ImageProvider σ) (url : String) :
    Returns (fun _ => True) (p.downloadImage url) := by
  unfold downloadImage
  cases p.download with
  | none => exact .pure trivial
  | some load => exact .ask fun _ => trivial

end ImageProvider

/-! ## Dynamic and remote providers -/

namespace Manager

variable (m : Manager σ) (p : ImageProvider σ) (item : Item) {asked wanted : List ImageType}
  {s : Supply}

theorem storeImage_returns (t : ImageType) (mediaType data : String) :
    Returns (fun answer => ∀ image, answer = .ok image → m.StoresAsAsked → image.imageType = t)
      (m.storeImage item t mediaType data) :=
  .ask fun _ image himage hfaithful => hfaithful _ _ _ _ _ image himage

/-- By induction on the types that are still wanted. -/
theorem supplyGenerated_returns (hs : s.Picked m.StoresAsAsked asked) :
    Returns (Supply.Picked m.StoresAsAsked (asked ++ wanted))
      (m.supplyGenerated p item wanted s) := by
  induction wanted generalizing asked s with
  | nil => exact .pure (hs.pass [])
  | cons t rest ih =>
    have hrest {s : Supply} (hs : s.Picked m.StoresAsAsked (asked ++ [t])) :
        Returns (Supply.Picked m.StoresAsAsked (asked ++ t :: rest))
          (m.supplyGenerated p item rest s) := by
      simpa using ih hs
    unfold supplyGenerated
    refine .bind (p.generateImage_returns _ t) fun answer _ => ?_
    cases answer with
    | error f => exact .pure ((hs.pass _).stop f)
    | ok made =>
      cases made with
      | none => exact hrest (hs.pass [t])
      | some response =>
        refine .bind (m.storeImage_returns _ t _ _) fun stored hstored => ?_
        cases stored with
        | error f => exact .pure ((hs.pass _).stop f)
        | ok image => exact hrest (hs.add (hstored image rfl))

theorem supplyDownloads_returns (language : String) (candidates : List RemoteImage)
    (hs : s.Picked m.StoresAsAsked asked) :
    Returns (Supply.Picked m.StoresAsAsked (asked ++ wanted))
      (m.supplyDownloads p language candidates item wanted s) := by
  induction wanted generalizing asked s with
  | nil => exact .pure (hs.pass [])
  | cons t rest ih =>
    have hrest {s : Supply} (hs : s.Picked m.StoresAsAsked (asked ++ [t])) :
        Returns (Supply.Picked m.StoresAsAsked (asked ++ t :: rest))
          (m.supplyDownloads p language candidates item rest s) := by
      simpa using ih hs
    unfold supplyDownloads
    cases RemoteImage.best? language t candidates with
    | none => exact hrest (hs.pass [t])
    | some best =>
      refine .bind (p.downloadImage_returns _) fun answer _ => ?_
      cases answer with
      | error f => exact hrest (hs.pass [t])
      | ok response =>
        dsimp only
        cases MediaType.validate best.url response.contentType with
        | error e => exact hrest (hs.pass [t])
        | ok mediaType =>
          refine .bind (m.storeImage_returns _ t _ _) fun stored hstored => ?_
          cases stored with
          | error f => exact .pure ((hs.pass _).stop f)
          | ok image => exact hrest (hs.add (hstored image rfl))

theorem supply_returns (language : String) :
    Returns (Supply.Serves m.StoresAsAsked wanted) (m.supply p language item wanted) := by
  have hserves {x : RefreshM σ Supply}
      (hx : Returns (Supply.Picked m.StoresAsAsked ([] ++ wanted)) x) :
      Returns (Supply.Serves m.StoresAsAsked wanted) x := fun w => by
    obtain ⟨s, w', hrun, hs⟩ := hx w
    exact ⟨s, w', hrun, hs.serves⟩
  unfold supply
  cases p.source with
  | disk => exact p.supplyFiles_returns item
  | dynamic => exact hserves (m.supplyGenerated_returns p item Supply.picked_none)
  | remote =>
    refine .bind (p.listCandidates_returns item) fun answer _ => ?_
    cases answer with
    | ok candidates =>
      exact hserves (m.supplyDownloads_returns p item language candidates Supply.picked_none)
    | error f => exact .pure (Supply.serves_none.stop f)

end Manager

end MediaRefresh
