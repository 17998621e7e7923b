import MediaRefresh.Refresh.World
import MediaRefresh.Settings.File
import Mathlib.Data.List.Nodup

/-!
# Settings: the order of the blocks

A configuration is accepted exactly when its pause is not too long, its blocks are for
different kinds and its language is not blank.  In an accepted one the block for a kind is
found wherever it stands, so that the blocks may come in any order.
-/

set_option autoImplicit false

namespace MediaRefresh

variable {kind : ItemKind} {kinds seen : List ItemKind} {block : KindOptions}
  {blocks : List KindOptions}

/-- By induction on the kinds, each of which is one of those that later ones must not be. -/
theorem repeatedKind?_eq_none_iff :
    repeatedKind? seen kinds = none ↔ kinds.Nodup ∧ ∀ k ∈ kinds, k ∉ seen := by
  induction kinds generalizing seen with
  | nil => simp [repeatedKind?]
  | cons k rest ih =>
    have hrest : (∀ x ∈ rest, x ∉ k :: seen) ↔ k ∉ rest ∧ ∀ x ∈ rest, x ∉ seen := by
      simp only [List.mem_cons, not_or]
      constructor
      · intro h
        exact ⟨fun hmem => (h k hmem).1 rfl, fun x hx => (h x hx).2⟩
      · rintro ⟨hfresh, hunseen⟩ x hx
        exact ⟨fun heq => hfresh (heq ▸ hx), hunseen x hx⟩
    unfold repeatedKind?
    rw [List.nodup_cons, List.forall_mem_cons]
    split
    · rename_i hseen
      simp [hseen]
    · rename_i hfresh
      rw [ih, hrest]
      tauto

namespace Config

variable {c : Config}

/-! ## What is accepted -/

/-- The pause is at most a minute, no two blocks are for one kind, and something is left of the
language when it is trimmed. -/
structure Sound (c : Config) : Prop where
  pause : c.throttle ≤ 60000
  distinct : c.metadata.kinds.Pairwise fun a b => a.kind ≠ b.kind
  language : Text.trim c.metadata.language ≠ ""

theorem fault?_eq_none_iff : c.fault? = none ↔ c.Sound := by
  have hdistinct : repeatedKind? [] (c.metadata.kinds.map KindOptions.kind) = none ↔
      c.metadata.kinds.Pairwise fun a b => a.kind ≠ b.kind := by
    rw [repeatedKind?_eq_none_iff, List.Nodup, List.pairwise_map]
    simp
  have hlanguage : Text.blank c.metadata.language = false ↔
      Text.trim c.metadata.language ≠ "" := by
    rw [ne_eq, ← Text.blank_iff_trim, Bool.not_eq_true]
  constructor
  · intro h
    unfold fault? at h
    split at h
    · cases h
    · rename_i hpause
      split at h
      · cases h
      · rename_i hnone
        refine ⟨Nat.le_of_not_lt hpause, hdistinct.mp hnone, hlanguage.mp ?_⟩
        simpa using h
  · rintro ⟨hpause, hkinds, htext⟩
    have hshort : ¬ maxThrottle < c.throttle := Nat.not_lt.mpr hpause
    unfold fault?
    rw [if_neg hshort, hdistinct.mpr hkinds]
    simp [hlanguage.mpr htext]

theorem check_eq_ok_iff : c.check = .ok c ↔ c.Sound := by
  rw [← fault?_eq_none_iff]
  unfold check
  cases c.fault? with
  | none => simp
  | some f => simp

theorem sound_of_load {file : Option ByteArray} (h : load file = .ok c) : c.Sound := by
  rw [← fault?_eq_none_iff]
  unfold load ofText at h
  split at h
  · cases h
  · split at h
    · cases h
    · split at h
      · cases h
      · rename_i hnone
        cases h
        exact hnone

/-- The configuration with other blocks. -/
def withBlocks (c : Config) (blocks : List KindOptions) : Config :=
  { c with metadata := { c.metadata with kinds := blocks } }

theorem Sound.withBlocks (h : c.Sound) (hperm : blocks.Perm c.metadata.kinds) :
    (c.withBlocks blocks).Sound where
  pause := h.pause
  distinct := hperm.symm.pairwise h.distinct fun hne => hne.symm
  language := h.language

end Config

/-! ## Which block is found -/

namespace MetadataConfig

variable {c d : MetadataConfig}

theorem kindOptions_of_mem (h : c.kinds.Pairwise fun a b => a.kind ≠ b.kind)
    (hblock : block ∈ c.kinds) : c.kindOptions block.kind = block := by
  obtain ⟨before, after, hsplit⟩ := List.append_of_mem hblock
  rw [hsplit, List.pairwise_append] at h
  have hnone : before.find? (·.kind == block.kind) = none :=
    List.find?_eq_none.mpr fun b hb => by simpa using h.2.2 b hb block List.mem_cons_self
  unfold kindOptions
  rw [hsplit, List.find?_append, hnone, Option.none_or, List.find?_cons_of_pos (by simp),
    Option.getD_some]

theorem kindOptions_of_missing (h : ∀ block ∈ c.kinds, block.kind ≠ kind) :
    c.kindOptions kind = .empty kind := by
  have hnone : c.kinds.find? (·.kind == kind) = none :=
    List.find?_eq_none.mpr fun b hb => by simpa using h b hb
  unfold kindOptions
  rw [hnone, Option.getD_none]

/-- With different kinds a list answers as the set of its blocks. -/
theorem kindOptions_of_perm (hperm : d.kinds.Perm c.kinds)
    (h : c.kinds.Pairwise fun a b => a.kind ≠ b.kind) (kind : ItemKind) :
    d.kindOptions kind = c.kindOptions kind := by
  have h' : d.kinds.Pairwise fun a b => a.kind ≠ b.kind :=
    hperm.symm.pairwise h fun hne => hne.symm
  by_cases hthere : ∃ block ∈ c.kinds, block.kind = kind
  · obtain ⟨block, hblock, rfl⟩ := hthere
    rw [kindOptions_of_mem h hblock, kindOptions_of_mem h' (hperm.mem_iff.mpr hblock)]
  · have hmissing : ∀ block ∈ c.kinds, block.kind ≠ kind :=
      fun block hblock hkind => hthere ⟨block, hblock, hkind⟩
    rw [kindOptions_of_missing hmissing,
      kindOptions_of_missing fun block hblock => hmissing block (hperm.mem_iff.mp hblock)]

end MetadataConfig

namespace Config

/-- A configuration is accepted exactly when it is sound, and then with its blocks in any other
order too.  Each block is found under its kind, a kind without one has the empty block, and so
whatever the order, the settings in force for an item and the providers that are selected for
it stay the same. -/
theorem accepted_in_any_order (c : Config) :
    (c.check = .ok c ↔ c.Sound) ∧
      ∀ blocks, blocks.Perm c.metadata.kinds → c.check = .ok c →
        let c' := c.withBlocks blocks
        c'.check = .ok c' ∧
          (∀ kind, c'.metadata.kindOptions kind = c.metadata.kindOptions kind) ∧
          (∀ block ∈ blocks, c'.metadata.kindOptions block.kind = block) ∧
          (∀ kind, (∀ block ∈ blocks, block.kind ≠ kind) →
            c'.metadata.kindOptions kind = .empty kind) ∧
          ∀ (σ : Type) (m : Manager σ), m.config = c → ∀ item,
            let m' := { m with config := c' }
            (∀ state, m'.policy state item = m.policy state item) ∧
              (∀ state mode includeDisabled, m'.imageProviders state item mode includeDisabled =
                m.imageProviders state item mode includeDisabled) ∧
              ∀ library includeDisabled forceInternet,
                m'.metadataProviders item library includeDisabled forceInternet =
                  m.metadataProviders item library includeDisabled forceInternet := by
  refine ⟨check_eq_ok_iff, fun blocks hperm haccepted => ?_⟩
  intro c'
  have hsound : c.Sound := check_eq_ok_iff.mp haccepted
  have hsound' : c'.Sound := hsound.withBlocks hperm
  have hfound (kind : ItemKind) : c'.metadata.kindOptions kind = c.metadata.kindOptions kind :=
    MetadataConfig.kindOptions_of_perm (d := c'.metadata) hperm hsound.distinct kind
  refine ⟨check_eq_ok_iff.mpr hsound', hfound,
    fun block hblock => MetadataConfig.kindOptions_of_mem hsound'.distinct hblock,
    fun kind hmissing => MetadataConfig.kindOptions_of_missing hmissing,
    fun σ m hconfig item => ?_⟩
  intro m'
  have hoptions : m'.kindOptions item = m.kindOptions item := by
    unfold Manager.kindOptions
    rw [hconfig]
    exact hfound item.kind
  have hpolicy (state : σ) : m'.policy state item = m.policy state item := by
    unfold Manager.policy
    rw [hoptions]
  refine ⟨hpolicy, fun state mode includeDisabled => ?_, fun library includeDisabled force => ?_⟩
  · unfold Manager.imageProviders
    rw [hpolicy]
  · unfold Manager.metadataProviders
    rw [hoptions]

/-- Blocks for films and for series, the other way round. -/
theorem films_and_series_exchanged :
    let films : KindOptions := { KindOptions.empty .movie with readerOrder := ["Nfo"] }
    let series : KindOptions := .empty .series
    let c : Config := .withBlocks .standard [films, series]
    [series, films].Perm c.metadata.kinds ∧ c.check = .ok c ∧
      (c.withBlocks [series, films]).metadata.kindOptions .movie = films := by
  intro films series c
  have hperm : [series, films].Perm c.metadata.kinds := .swap _ _ _
  have hcheck : c.check = .ok c := by decide
  obtain ⟨-, -, hfound, -⟩ := (accepted_in_any_order c).2 [series, films] hperm hcheck
  exact ⟨hperm, hcheck, hfound films (by simp)⟩

/-- Of two blocks for one kind the first one would answer. -/
example :
    let films : KindOptions := .empty .movie
    let c : Config := .withBlocks .standard [films, { films with readerOrder := ["Nfo"] }]
    c.check = .error (.repeatedKind .movie) ∧
      (c.withBlocks c.metadata.kinds.reverse).metadata.kindOptions .movie ≠
        c.metadata.kindOptions .movie := by
  decide

end Config

end MediaRefresh
