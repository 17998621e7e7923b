import MediaRefresh.Proofs.Metadata.CallOrder
import MediaRefresh.Proofs.Refresh.Validation
import MediaRefresh.Session

/-!
# Sessions: which service refreshes an item

A registration sorts the services that are declared to it, and a refresh searches the sorted
ones twice.  Of the services that are dedicated to the kind of the item, and if there are none
of those that can refresh it, it takes the one of smallest order, and of several the one that
was declared first.  It calls this service once and no other.
-/

set_option autoImplicit false

namespace MediaRefresh

open RefreshM

variable {σ : Type}

/-! ## Services in order -/

/-- Services as a registration keeps them. -/
def inOrder (services : List (Service σ)) : List (Service σ) :=
  services.mergeSort fun a b => a.order ≤ b.order

section InOrder

variable {services : List (Service σ)}

theorem Service.order_trans (a b c : Service σ) (hab : decide (a.order ≤ b.order) = true)
    (hbc : decide (b.order ≤ c.order) = true) : decide (a.order ≤ c.order) = true := by
  simp only [decide_eq_true_eq] at hab hbc ⊢
  omega

theorem Service.order_total (a b : Service σ) :
    (decide (a.order ≤ b.order) || decide (b.order ≤ a.order)) = true := by
  simp only [Bool.or_eq_true, decide_eq_true_eq]
  omega

theorem mem_inOrder {s : Service σ} : s ∈ inOrder services ↔ s ∈ services := List.mem_mergeSort

theorem filter_inOrder (claims : Service σ → Bool) :
    (inOrder services).filter claims = inOrder (services.filter claims) :=
  filter_mergeSort_comm Service.order_trans Service.order_total claims services

/-- One more service that is declared before the others comes behind those of smaller
order. -/
theorem inOrder_cons (s : Service σ) (services : List (Service σ)) :
    ∃ front back, inOrder (s :: services) = front ++ s :: back ∧
      inOrder services = front ++ back ∧ (∀ t ∈ front, t.order < s.order) ∧
      ∀ t ∈ back, s.order ≤ t.order := by
  obtain ⟨front, back, hsorted, hrest, hfront⟩ :=
    List.mergeSort_cons Service.order_trans Service.order_total s services
  have hpairwise := List.pairwise_mergeSort Service.order_trans Service.order_total (s :: services)
  rw [hsorted] at hpairwise
  refine ⟨front, back, hsorted, hrest, fun t ht => by simpa using hfront t ht, fun t ht => ?_⟩
  exact of_decide_eq_true (List.rel_of_pairwise_cons (List.pairwise_append.mp hpairwise).2.1 ht)

end InOrder

/-- A service of smallest order, declared before the others of that order. -/
def Foremost (services : List (Service σ)) (s : Service σ) : Prop :=
  ∃ before after, services = before ++ s :: after ∧
    (∀ t ∈ before, s.order < t.order) ∧ ∀ t ∈ after, s.order ≤ t.order

namespace Foremost

variable {services : List (Service σ)} {s t : Service σ}

theorem mem (h : Foremost services s) : s ∈ services := by
  obtain ⟨before, after, rfl, -, -⟩ := h
  exact List.mem_append_right before List.mem_cons_self

theorem order_le (h : Foremost services s) (ht : t ∈ services) : s.order ≤ t.order := by
  obtain ⟨before, after, rfl, hbefore, hafter⟩ := h
  rcases List.mem_append.mp ht with ht | ht
  · exact Int.le_of_lt (hbefore t ht)
  · rcases List.mem_cons.mp ht with rfl | ht
    · exact Int.le_refl _
    · exact hafter t ht

/-- It is the first one whose order is not larger. -/
theorem find?_eq (h : Foremost services s) : services.find? (·.order ≤ s.order) = some s := by
  obtain ⟨before, after, rfl, hbefore, -⟩ := h
  have hnone : before.find? (·.order ≤ s.order) = none :=
    List.find?_eq_none.mpr fun t ht => by simpa using hbefore t ht
  rw [List.find?_append, hnone, Option.none_or, List.find?_cons_of_pos (by simp)]

theorem unique (hs : Foremost services s) (ht : Foremost services t) : s = t := by
  have horder : s.order = t.order := Int.le_antisymm (hs.order_le ht.mem) (ht.order_le hs.mem)
  have hfind := hs.find?_eq
  rw [horder, ht.find?_eq] at hfind
  exact (Option.some.inj hfind).symm

theorem cons_of_lt (h : Foremost services s) (hlt : s.order < t.order) :
    Foremost (t :: services) s := by
  obtain ⟨before, after, rfl, hbefore, hafter⟩ := h
  exact ⟨t :: before, after, rfl, List.forall_mem_cons.mpr ⟨hlt, hbefore⟩, hafter⟩

/-- By induction on the services, of which the last declared are the first to be sorted. -/
theorem of_head? (h : (inOrder services).head? = some s) : Foremost services s := by
  induction services with
  | nil =>
    rw [inOrder, List.mergeSort_nil] at h
    cases h
  | cons t rest ih =>
    obtain ⟨front, back, hsorted, hrest, hfront, hback⟩ := inOrder_cons t rest
    rw [hsorted] at h
    cases front with
    | nil =>
      cases h
      refine ⟨[], rest, rfl, by simp, fun u hu => hback u ?_⟩
      rwa [← List.nil_append back, ← hrest, mem_inOrder]
    | cons u front =>
      cases h
      exact (ih (congrArg List.head? hrest)).cons_of_lt (hfront s List.mem_cons_self)

/-- What a search of the services in order finds. -/
theorem of_find? {claims : Service σ → Bool} (h : (inOrder services).find? claims = some s) :
    Foremost (services.filter claims) s := by
  rw [← List.head?_filter, filter_inOrder] at h
  exact of_head? h

end Foremost

/-! ## Registrations -/

/-- What is declared to a registration. -/
structure Registration (σ : Type) where
  imageProviders : List (ImageProvider σ)
  services : List (Service σ)
  metadataProviders : List (MetadataProvider σ)
  savers : List (Saver σ)
  catalogues : List Catalogue

/-- The providers that a registration makes. -/
def Registration.set (r : Registration σ) : ProviderSet σ :=
  .register r.imageProviders r.services r.metadataProviders r.savers r.catalogues

/-- The services of the last registration. -/
def declaredLast (rs : List (Registration σ)) : List (Service σ) :=
  (rs.getLast?.map Registration.services).getD []

/-- The session after a sequence of registrations. -/
def Session.registerAll (s : Session σ) (rs : List (Registration σ)) : Session σ :=
  rs.foldl (fun s r => s.register r.set) s

/-- What has been registered before the last registration makes no difference. -/
theorem Session.manager_registerAll (s : Session σ) (rs : List (Registration σ)) :
    (s.registerAll rs).manager =
      { s.manager with
        providers := (rs.getLast?.map Registration.set).getD s.manager.providers } := by
  induction rs using List.reverseRecOn with
  | nil => rfl
  | append_singleton rs r ih =>
    have hlast : s.registerAll (rs ++ [r]) = (s.registerAll rs).register r.set :=
      List.foldl_concat ..
    rw [hlast, List.getLast?_concat]
    unfold register
    rw [ih]
    rfl

theorem Session.services_registerAll (config : Config) (host : Host σ) (state : σ)
    (rs : List (Registration σ)) :
    ((fresh ⟨config, .empty, host⟩ state).registerAll rs).manager.providers.services =
      inOrder (declaredLast rs) := by
  rw [manager_registerAll]
  unfold declaredLast
  cases rs.getLast? with
  | none => exact List.mergeSort_nil.symm
  | some r => rfl

/-! ## Who is responsible -/

/-- Which of the declared services is responsible for an item. -/
inductive Responsible (declared : List (Service σ)) (item : Item) : Option (Service σ) → Prop where
  /-- one that is dedicated to its kind -/
  | dedicated {s : Service σ}
      (foremost : Foremost (declared.filter (·.dedicatedTo item.kind)) s) :
      Responsible declared item (some s)
  /-- one that can refresh it, as none is dedicated to its kind -/
  | able {s : Service σ} (undedicated : ∀ t ∈ declared, t.dedicatedTo item.kind = false)
      (foremost : Foremost (declared.filter (·.canRefresh item)) s) :
      Responsible declared item (some s)
  /-- none -/
  | nobody (undedicated : ∀ t ∈ declared, t.dedicatedTo item.kind = false)
      (unable : ∀ t ∈ declared, t.canRefresh item = false) :
      Responsible declared item none

namespace Responsible

variable {declared : List (Service σ)} {item : Item} {s? t? : Option (Service σ)} {t : Service σ}

theorem unique (h : Responsible declared item s?) (h' : Responsible declared item t?) :
    s? = t? := by
  have hclaimed {claims : Service σ → Bool} {s : Service σ}
      (hs : Foremost (declared.filter claims) s) (hnone : ∀ t ∈ declared, claims t = false) :
      False := by
    obtain ⟨hmem, hclaims⟩ := List.mem_filter.mp hs.mem
    rw [hnone s hmem] at hclaims
    cases hclaims
  cases h with
  | dedicated hs =>
    cases h' with
    | dedicated ht => rw [hs.unique ht]
    | able hnone => exact (hclaimed hs hnone).elim
    | nobody hnone => exact (hclaimed hs hnone).elim
  | able hnone hs =>
    cases h' with
    | dedicated ht => exact (hclaimed ht hnone).elim
    | able _ ht => rw [hs.unique ht]
    | nobody _ hunable => exact (hclaimed hs hunable).elim
  | nobody hnone hunable =>
    cases h' with
    | dedicated ht => exact (hclaimed ht hnone).elim
    | able _ ht => exact (hclaimed ht hunable).elim
    | nobody => rfl

/-- Where a service is dedicated to the kind of an item, one that is dedicated to it is
responsible. -/
theorem of_dedicated (h : Responsible declared item s?) (ht : t ∈ declared)
    (hdedicated : t.dedicatedTo item.kind = true) :
    ∃ s, s? = some s ∧ Foremost (declared.filter (·.dedicatedTo item.kind)) s := by
  cases h with
  | dedicated hforemost => exact ⟨_, rfl, hforemost⟩
  | able hnone =>
    rw [hnone t ht] at hdedicated
    cases hdedicated
  | nobody hnone =>
    rw [hnone t ht] at hdedicated
    cases hdedicated

end Responsible

/-! ## The call of a service -/

/-- The service of its own that a line is the call of, with what it is called with. -/
def Entry.served? : Entry → Option (String × Item × RefreshOptions)
  | called (.serve name item options) => some (name, item, options)
  | _ => none

/-- Which services of their own were called, in order. -/
def servings (lines : List Entry) : List (String × Item × RefreshOptions) :=
  lines.filterMap Entry.served?

/-- How one call of a service shows in the journal: not at all if it consults the providers. -/
def Service.servings (s : Service σ) (item : Item) (options : RefreshOptions) :
    List (String × Item × RefreshOptions) :=
  match s.work with
  | .consult => []
  | .own name _ => [(name, item, options)]

section Readings

variable {lines more : List Entry}

theorem servings_append : servings (lines ++ more) = servings lines ++ servings more :=
  List.filterMap_append

theorem servings_of_consults (h : ∀ e ∈ lines, e.consults = true) : servings lines = [] := by
  refine List.filterMap_eq_nil_iff.mpr fun e he => ?_
  cases e with
  | called c =>
    cases c with
    | serve name item options => cases h _ he
    | _ => rfl
  | _ => rfl

end Readings

/-- The end of a refresh, by the end of the call of its service: a change is announced. -/
def announcing (item : Item) :
    EStateM.Result Interrupt (World σ) Update → EStateM.Result Interrupt (World σ) Update
  | .ok update w =>
    .ok update (if update.isEmpty then w
      else w.noting (.announced (.updated item.id update.toList)))
  | .error e w => .error e w

namespace Manager

variable (m : Manager σ)

theorem responsible_service? {declared : List (Service σ)} (item : Item)
    (h : m.providers.services = inOrder declared) :
    Responsible declared item (m.service? item) := by
  have hnone {claims : Service σ → Bool} (hfind : (inOrder declared).find? claims = none) :
      ∀ t ∈ declared, claims t = false := fun t ht =>
    Bool.eq_false_iff.mpr (List.find?_eq_none.mp hfind t (mem_inOrder.mpr ht))
  unfold service?
  rw [h]
  cases hdedicated : (inOrder declared).find? (·.dedicatedTo item.kind) with
  | some s => exact .dedicated (.of_find? hdedicated)
  | none =>
    rw [Option.orElse_none]
    cases hable : (inOrder declared).find? (·.canRefresh item) with
    | some s => exact .able (hnone hdedicated) (.of_find? hable)
    | none => exact .nobody (hnone hdedicated) (hnone hable)

theorem refreshSingle_of_none {item : Item} (h : m.service? item = none)
    (options : RefreshOptions) {w : World σ} (hactive : w.cancelled = false) :
    m.refreshSingle item options w = .ok .empty w := by
  unfold refreshSingle
  rw [bind_of_ok (checkCancelled_of_active hactive), h]
  rfl

theorem refreshSingle_of_some {item : Item} {s : Service σ} (h : m.service? item = some s)
    (options : RefreshOptions) {w : World σ} (hactive : w.cancelled = false) :
    m.refreshSingle item options w = announcing item (m.serve s item options w) := by
  unfold refreshSingle
  rw [bind_of_ok (checkCancelled_of_active hactive), h]
  dsimp only
  cases hserve : m.serve s item options w with
  | error e mid => rw [bind_of_error hserve, announcing]
  | ok update mid =>
    rw [bind_of_ok hserve, announcing]
    split
    · rfl
    · rfl

/-- A service calls no other. -/
theorem serve_servings (s : Service σ) (item : Item) (options : RefreshOptions) (w : World σ) :
    ∃ lines, (World.after (m.serve s item options w)).journal = w.journal ++ lines ∧
      servings lines = s.servings item options := by
  obtain ⟨lines, hjournal, hlines⟩ := m.serve_lines s item options w
  refine ⟨lines, hjournal, ?_⟩
  unfold Service.servings
  cases hwork : s.work with
  | consult =>
    rw [hwork] at hlines
    exact servings_of_consults hlines
  | own name refresh =>
    rw [hwork] at hlines
    rw [hlines]
    rfl

theorem announcing_servings (item : Item) (result : EStateM.Result Interrupt (World σ) Update) :
    ∃ more, (World.after (announcing item result)).journal =
        (World.after result).journal ++ more ∧ servings more = [] := by
  cases result with
  | error e w => exact ⟨[], (List.append_nil _).symm, rfl⟩
  | ok update w =>
    cases hempty : update.isEmpty with
    | true => exact ⟨[], by simp [announcing, hempty, World.after], rfl⟩
    | false =>
      refine ⟨[.announced (.updated item.id update.toList)], ?_, rfl⟩
      simp [announcing, hempty, World.after, World.noting]

/-- After whatever registrations, one service of the last one at most is responsible for an
item: of those that are dedicated to its kind, else of those that can refresh it, the one of
smallest order, and of several the one declared first.  The refresh of the item calls it once
and no other, and if there is none nothing happens.  Where a service is dedicated to the kind by
its list of kinds, a generic one is never called, whatever their orders are. -/
theorem dispatched_by_declaration (config : Config) (host : Host σ) (state : σ)
    (rs : List (Registration σ)) (item : Item) (options : RefreshOptions) {w : World σ}
    (hactive : w.cancelled = false) :
    let m := ((Session.fresh ⟨config, .empty, host⟩ state).registerAll rs).manager
    ∃ s?, (∀ t?, Responsible (declaredLast rs) item t? ↔ t? = s?) ∧
      (match s? with
        | none => m.refreshSingle item options w = .ok .empty w
        | some s =>
          m.refreshSingle item options w = announcing item (m.serve s item options w) ∧
            ∃ lines, (World.after (m.refreshSingle item options w)).journal =
                w.journal ++ lines ∧ servings lines = s.servings item options) ∧
      ∀ kinds order, { Service.dedicated kinds with order := order } ∈ declaredLast rs →
        item.kind ∈ kinds → ∃ s, s? = some s ∧ s.dedicatedTo item.kind = true ∧
          ∀ order', s ≠ { Service.generic with order := order' } := by
  intro m
  have hresponsible : Responsible (declaredLast rs) item (m.service? item) :=
    m.responsible_service? item (Session.services_registerAll config host state rs)
  refine ⟨m.service? item, fun t? => ⟨fun h => h.unique hresponsible, ?_⟩, ?_,
    fun kinds order hdeclared hkind => ?_⟩
  · rintro rfl
    exact hresponsible
  · cases hservice : m.service? item with
    | none => exact m.refreshSingle_of_none hservice options hactive
    | some s =>
      have hrefresh := m.refreshSingle_of_some hservice options hactive
      obtain ⟨lines, hserve, hone⟩ := m.serve_servings s item options w
      obtain ⟨more, hmore, hnone⟩ := announcing_servings item (m.serve s item options w)
      refine ⟨hrefresh, lines ++ more, ?_, ?_⟩
      · rw [hrefresh, hmore, hserve, List.append_assoc]
      · rw [servings_append, hone, hnone, List.append_nil]
  · obtain ⟨s, hs, hforemost⟩ :=
      hresponsible.of_dedicated hdeclared (List.contains_iff_mem.mpr hkind)
    have hdedicated : s.dedicatedTo item.kind = true := (List.mem_filter.mp hforemost.mem).2
    refine ⟨s, hs, hdedicated, ?_⟩
    rintro order' rfl
    cases hdedicated

/-! ## A generic service that is declared first -/

open Rehearsal

/-- A service for films. -/
def filmService : Service Stage := { Service.dedicated [.movie] with order := 5 }

/-- A service that is declared no more, and then a generic one of smaller order before that for
films. -/
def twoRegistrations : List (Registration Stage) :=
  [⟨[], [service "Films" 0 [.movie] none .empty []], [], [], []⟩,
   ⟨[], [{ Service.generic with order := -3 }, filmService], [], [], []⟩]

theorem film_dispatched :
    let m := ((Session.fresh ⟨.standard, .empty, Stage.host⟩ emptyStage).registerAll
      twoRegistrations).manager
    (World.fresh emptyStage).cancelled = false ∧
      m.refreshSingle film .full (.fresh emptyStage) =
        announcing film (m.serve filmService film .full (.fresh emptyStage)) := by
  have hactive : (World.fresh emptyStage).cancelled = false := rfl
  obtain ⟨s?, hresponsible, hrefresh, hbeats⟩ := dispatched_by_declaration .standard Stage.host
    emptyStage twoRegistrations film .full hactive
  have hdeclared : filmService ∈ declaredLast twoRegistrations :=
    List.mem_cons_of_mem _ List.mem_cons_self
  obtain ⟨s, rfl, -, -⟩ := hbeats [.movie] 5 hdeclared List.mem_cons_self
  obtain ⟨t, ht, hforemost⟩ := ((hresponsible _).mpr rfl).of_dedicated hdeclared rfl
  cases ht
  have hs : s = filmService := List.mem_singleton.mp hforemost.mem
  subst hs
  exact ⟨hactive, hrefresh.1⟩

end Manager

end MediaRefresh
