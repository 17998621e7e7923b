import Mathlib
import MediaRefresh.Proofs.Metadata.CallOrder
import MediaRefresh.Proofs.Refresh.Bracket
import MediaRefresh.Proofs.Settings.Blocks
import MediaRefresh.Search.Remote
import MediaRefresh.Settings.File

/-!
# Metadata: the language and the country of lookups

A provider is told a language and a country whenever it looks an item up or searches.  They
are the item's or the query's own if these are not blank, else the configured ones.  A
configuration is rejected when its language is blank, so that there always is a language.  It
is accepted when its country is blank, and so there may be none where the item or the query has
none either.
-/

set_option autoImplicit false

namespace MediaRefresh

variable {σ α β : Type}

/-! ## Lines that look something up -/

/-- What a provider is told, when it looks an item up or searches. -/
def Entry.lookup? : Entry → Option LookupInfo
  | called (.fetch _ info) | called (.search _ info) => some info
  | _ => none

/-- What the line tells a provider, if anything, satisfies `H`. -/
abbrev Entry.LooksUp (H : LookupInfo → Prop) (e : Entry) : Prop := ∀ info ∈ e.lookup?, H info

theorem Entry.lookup?_of_isPlain {e : Entry} (h : e.isPlain = true) : e.lookup? = none := by
  cases e with
  | called c =>
    cases c with
    | fetch provider info => cases h
    | search provider info => cases h
    | _ => rfl
  | _ => rfl

theorem Entry.looksUp_of_none {H : LookupInfo → Prop} {e : Entry} (h : e.lookup? = none) :
    e.LooksUp H := by simp [LooksUp, h]

namespace RefreshM

variable {P : Entry → Prop}

/-- From any world, the action only adds lines that satisfy `P`, also when it crashes. -/
def OnlyAdds (P : Entry → Prop) (x : RefreshM σ α) : Prop :=
  ∀ w, ∃ new, (World.after (x w)).journal = w.journal ++ new ∧ ∀ e ∈ new, P e

namespace OnlyAdds

variable {x : RefreshM σ α} {f : α → RefreshM σ β}

protected theorem of_journal_eq (h : ∀ w, (World.after (x w)).journal = w.journal) :
    OnlyAdds P x := fun w => ⟨[], by rw [h, List.append_nil], by simp⟩

protected theorem bind (hx : OnlyAdds P x) (hf : ∀ a, OnlyAdds P (f a)) :
    OnlyAdds P (x >>= f) := by
  intro w
  obtain ⟨new, hnew, hall⟩ := hx w
  cases hres : x w with
  | ok a mid =>
    obtain ⟨more, hmore, hall'⟩ := hf a mid
    rw [hres] at hnew
    rw [bind_of_ok hres]
    refine ⟨new ++ more, ?_, fun e he => (List.mem_append.mp he).elim (hall e) (hall' e)⟩
    rw [hmore, ← List.append_assoc, ← hnew]
    rfl
  | error e mid =>
    rw [hres] at hnew
    rw [bind_of_error hres]
    exact ⟨new, hnew, hall⟩

theorem exchange {g : World σ → World σ} {k : World σ → RefreshM σ α}
    (hjournal : ∀ w, (g w).journal = w.journal) (hk : ∀ w, OnlyAdds P (k w)) :
    OnlyAdds P (do
      let w ← get
      set (g w)
      k w) := by
  intro w
  obtain ⟨new, hnew, hall⟩ := hk w (g w)
  rw [hjournal] at hnew
  exact ⟨new, hnew, hall⟩

protected theorem attempt (hx : OnlyAdds P x) : OnlyAdds P (attempt x) := by
  intro w
  have hwithin := hx w
  rw [attempt_apply]
  cases hres : x w with
  | ok a mid => rwa [hres] at hwithin
  | error e mid =>
    rw [hres] at hwithin
    cases e <;> exact hwithin

section Announcing

variable (hannounced : ∀ event, P (.announced event))

include hannounced

protected theorem reportLeniently (item : Item) (progress : Numeric.Binary64) :
    OnlyAdds P (reportLeniently item progress : RefreshM σ Unit) := by
  intro w
  rw [reportLeniently_apply]
  change ∃ new, (reportedOn item progress w).journal = _ ∧ _
  unfold reportedOn
  cases w.tracker.report item progress with
  | ok told => exact ⟨[_], rfl, by simpa using hannounced _⟩
  | error e => exact ⟨[], (List.append_nil _).symm, by simp⟩

protected theorem during (hx : OnlyAdds P x) (item : Item) : OnlyAdds P (during item x) := by
  have hstart : OnlyAdds P (start item : RefreshM σ Unit) := fun w =>
    ⟨[_], rfl, by simpa using hannounced _⟩
  have hcomplete : OnlyAdds P (complete item : RefreshM σ Unit) := fun w =>
    ⟨[_], rfl, by simpa using hannounced _⟩
  unfold RefreshM.during
  refine hstart.bind fun _ => hx.attempt.bind fun result => hcomplete.bind fun _ => ?_
  cases result with
  | ok a => exact .of_journal_eq fun _ => rfl
  | error e => exact .of_journal_eq fun _ => rfl

end Announcing

theorem sequences {H : LookupInfo → Prop} :
    Sequences fun _ (x : RefreshM σ _) => OnlyAdds (Entry.LooksUp H) x where
  pure _ := .of_journal_eq fun _ => rfl
  stop _ := .of_journal_eq fun _ => rfl
  read := .of_journal_eq fun _ => rfl
  bind := .bind
  note hplain w := by
    refine ⟨[_], rfl, ?_⟩
    simpa using Entry.looksUp_of_none (Entry.lookup?_of_isPlain hplain)
  exchange _ hjournal hk := .exchange hjournal hk

/-- The lookups of a call are those of the refreshes of single items in it. -/
theorem assembles {m : Manager σ} {H : LookupInfo → Prop}
    (hsingle : ∀ item options, OnlyAdds (Entry.LooksUp H) (m.refreshSingle item options)) :
    Assembles m fun _ x => OnlyAdds (Entry.LooksUp H) x where
  toSequences := sequences
  single := hsingle
  attempt := .attempt
  reportLeniently := .reportLeniently fun _ => Entry.looksUp_of_none rfl
  during hx item := .during (fun _ => Entry.looksUp_of_none rfl) hx item

end OnlyAdds

end RefreshM

open RefreshM

/-! ## The lookups of an item and of a search -/

section Lookups

variable {H : LookupInfo → Prop}
  (hids : ∀ info ids, H info → H { info with externalIds := ids })

include hids

theorem MetadataProvider.consult_looksUp (p : MetadataProvider σ) {g : Gathering}
    (hg : H g.info) : Ensures (Entry.LooksUp H) (fun g => H g.info) (p.consult g) := by
  have hcall : (Entry.called (.fetch p.name g.info)).LooksUp H := by
    rintro _ ⟨⟩
    exact hg
  unfold MetadataProvider.consult
  refine .bind .checkCancelled fun _ _ => .bind (.ask hcall _) fun answer _ => ?_
  cases answer with
  | error f => exact .bind .checkCancelled fun _ _ => .pure hg
  | ok r =>
    refine .pure ?_
    unfold Gathering.take
    split
    · exact hids _ _ hg
    · exact hg

/-- What is true of the first lookup of an item, and does not depend on ids, is true of all of
them: they differ in the ids that have been found in between. -/
theorem Manager.gatherMetadata_looksUp {m : Manager σ} {item : Item} {options : RefreshOptions}
    (h : H (m.lookup item options)) :
    Writes (Entry.LooksUp H) (m.gatherMetadata item options) := by
  unfold gatherMetadata
  refine .bind .get fun w _ => .bind (Q := fun g => H g.info) ?_ fun g _ => .pure trivial
  refine .foldlM (fun g hg source _ => ?_) h
  unfold Gathering.consultSource
  split
  · exact .foldlM (fun g hg p _ => p.consult_looksUp hids hg) hg
  · exact .pure hg

theorem Manager.refreshSingle_looksUp {m : Manager σ} {item : Item} {options : RefreshOptions}
    (h : H (m.lookup item options)) :
    OnlyAdds (Entry.LooksUp H) (m.refreshSingle item options) :=
  OnlyAdds.sequences.refreshSingle m item options (m.gatherMetadata_looksUp hids h).adds

end Lookups

theorem Manager.search_looksUp {H : LookupInfo → Prop} {m : Manager σ} {query : SearchQuery}
    (h : H (m.searchInfo query.info)) : Writes (Entry.LooksUp H) (m.search query) := by
  have heach (searchers : List (Searcher σ)) :
      Writes (Entry.LooksUp H) (searchEach (m.searchInfo query.info) searchers) := by
    induction searchers with
    | nil => exact .pure trivial
    | cons s rest ih =>
      have hcall : (Entry.called (.search s.1 (m.searchInfo query.info))).LooksUp H := by
        rintro _ ⟨⟩
        exact h
      unfold searchEach
      refine .bind (.ask hcall _) fun answer _ => ?_
      cases answer with
      | ok hits => exact .bind ih fun _ _ => .pure trivial
      | error f => exact ih
  unfold search
  refine .bind .get fun w _ => .bind (heach _) fun batches _ => ?_
  exact .bind .checkCancelled fun _ _ => .pure trivial

/-! ## The configured language and country -/

/-- The lookup has a language that is not blank, and it has a country.  That is blank exactly
when there is none in the configuration and none of its own. -/
structure LookupInfo.Localised (c : MetadataConfig) (own : Option String) (info : LookupInfo) :
    Prop where
  language : ∃ l, info.language = some l ∧ Text.blank l = false
  country : ∃ s, info.country = some s ∧
    (Text.blank s = true ↔ Text.blank c.country = true ∧ ∀ o ∈ own, Text.blank o = true)

theorem Manager.blank_nonBlank_iff (own : Option String) (fallback : String) :
    Text.blank (nonBlank own fallback) = true ↔
      Text.blank fallback = true ∧ ∀ o ∈ own, Text.blank o = true := by
  unfold nonBlank
  cases own with
  | none => simp
  | some o => cases ho : Text.blank o <;> simp [Option.filter, ho]

theorem LookupInfo.Localised.of_fallback {c : MetadataConfig} {info : LookupInfo}
    {language country : Option String} (h : Text.blank c.language = false)
    (hlanguage : info.language = some (Manager.nonBlank language c.language))
    (hcountry : info.country = some (Manager.nonBlank country c.country)) :
    info.Localised c country where
  language := by
    refine ⟨_, hlanguage, Bool.eq_false_iff.mpr fun hblank => ?_⟩
    rw [((Manager.blank_nonBlank_iff _ _).mp hblank).1] at h
    cases h
  country := ⟨_, hcountry, Manager.blank_nonBlank_iff _ _⟩

theorem Config.language_of_load {file : Option ByteArray} {c : Config}
    (h : load file = .ok c) : Text.blank c.metadata.language = false := by
  have hlanguage := (sound_of_load h).language
  rwa [ne_eq, ← Text.blank_iff_trim, Bool.not_eq_true] at hlanguage

namespace Manager

/-- Under a configuration that was read from a file, the lookups of every call, of the refresh
of an item and of a search have a language and a country.  The country is blank exactly when
none is configured and the item or the query has none of its own. -/
theorem lookups_localised (m : Manager σ) {file : Option ByteArray}
    (h : Config.load file = .ok m.config) :
    (∀ call, OnlyAdds (Entry.LooksUp fun info => ∃ item : Item,
        info.Localised m.config.metadata item.preferredCountry) (m.carryOut call)) ∧
      (∀ item options, OnlyAdds (Entry.LooksUp fun info =>
        info.Localised m.config.metadata item.preferredCountry) (m.refreshSingle item options)) ∧
      ∀ query, OnlyAdds (Entry.LooksUp fun info =>
        info.Localised m.config.metadata query.info.country) (m.search query) := by
  have hlanguage := Config.language_of_load h
  have hsingle (item : Item) (options : RefreshOptions) : OnlyAdds (Entry.LooksUp fun info =>
      info.Localised m.config.metadata item.preferredCountry) (m.refreshSingle item options) :=
    m.refreshSingle_looksUp (fun _ _ hinfo => ⟨hinfo.language, hinfo.country⟩)
      (.of_fallback hlanguage rfl rfl)
  refine ⟨fun call => ?_, hsingle, fun query => ?_⟩
  · refine (OnlyAdds.assembles fun item options w => ?_).carryOut call
    obtain ⟨new, hnew, hall⟩ := hsingle item options w
    exact ⟨new, hnew, fun e he info hinfo => ⟨item, hall e he info hinfo⟩⟩
  · exact (m.search_looksUp (.of_fallback hlanguage rfl rfl)).adds

end Manager

/-! ## A configuration without a country -/

namespace Rehearsal

/-- The text of a configuration that sets no country. -/
def countryless : String := "metadata.country_code = \"\""

/-- A manager under that configuration, with a catalogue that can be searched. -/
def searchable : Manager Stage where
  config := ⟨{ MetadataConfig.standard with country := "" }, Config.standardThrottle⟩
  providers := { ProviderSet.empty with
    metadataProviders := [{ catalogue with search := some fun _ => answer (.ok []) false }] }
  host := Stage.host

/-- A search for a film, which may be for a country. -/
def filmSearch (country : Option String) : SearchQuery where
  info := { LookupInfo.ofItem film with country := country }
  kind := .movie
  itemId := none
  provider := none
  includeDisabled := true

theorem countryless_loads : Config.load (some countryless.toUTF8) = .ok searchable.config := by
  have htext (s : String) : (some s.toUTF8).bind String.fromUTF8? = some s :=
    dif_pos s.isValidUTF8
  have hdocument : Toml.read? countryless =
      some (.record [("metadata", .record [("country_code", .text "")])]) := by
    unfold countryless
    cbv
  unfold Config.load
  rw [htext]
  change Config.ofText countryless = _
  unfold Config.ofText
  rw [hdocument]
  rfl

theorem searchable_searched (country : Option String) :
    (World.after (searchable.search (filmSearch country) (.fresh Manager.emptyStage))).journal =
      [.called (.search "Catalogue" (searchable.searchInfo (filmSearch country).info))] := by
  have hselected : searchable.metadataProviders (searchable.placeholder .movie) .standard true
      false = searchable.providers.metadataProviders :=
    MetadataProvider.select_of_ordered (by decide) (by decide)
  have hsearchers : searchable.searchers Manager.emptyStage (filmSearch country) =
      [("Catalogue", fun _ => answer (.ok []) false)] := by
    change ((searchable.metadataProviders (searchable.placeholder .movie) .standard true
      false).filterMap _).filter _ = _
    rw [hselected]
    rfl
  have hget : (get : RefreshM Stage (World Stage)) (.fresh Manager.emptyStage) =
      .ok (.fresh Manager.emptyStage) (.fresh Manager.emptyStage) := rfl
  unfold Manager.search
  rw [bind_of_ok hget]
  change (World.after ((Manager.searchEach _ (searchable.searchers Manager.emptyStage _) >>= _)
    _)).journal = _
  rw [hsearchers]
  rfl

end Rehearsal

open Rehearsal

namespace Manager

/-- Nothing but the query says where a film is searched for. -/
theorem french_search_localised :
    Config.load (some countryless.toUTF8) = .ok searchable.config ∧
      ∃ info, (World.after (searchable.search (filmSearch (some "FR"))
          (.fresh emptyStage))).journal = [.called (.search "Catalogue" info)] ∧
        info.Localised searchable.config.metadata (some "FR") := by
  obtain ⟨-, -, hsearch⟩ := searchable.lookups_localised countryless_loads
  obtain ⟨new, hnew, hall⟩ := hsearch (filmSearch (some "FR")) (.fresh emptyStage)
  have hjournal := searchable_searched (some "FR")
  have hline : .called (.search "Catalogue"
      (searchable.searchInfo (filmSearch (some "FR")).info)) ∈ new := by
    rw [hjournal] at hnew
    rw [show new = _ from hnew.symm]
    exact List.mem_singleton_self _
  exact ⟨countryless_loads, _, hjournal, hall _ hline _ rfl⟩

/-- A film is searched for with a blank country, under a configuration that was accepted. -/
theorem blank_country_told :
    ¬ ∀ (file : Option ByteArray) (m : Manager Stage) (query : SearchQuery) (state : Stage),
      Config.load file = .ok m.config →
      ∀ e ∈ (World.after (m.search query (.fresh state))).journal, ∀ info ∈ e.lookup?,
        ∃ country, info.country = some country ∧ Text.blank country = false := by
  intro h
  have hline := h _ searchable (filmSearch none) emptyStage countryless_loads
  rw [searchable_searched] at hline
  obtain ⟨country, hcountry, hpresent⟩ := hline _ (List.mem_singleton_self _) _ rfl
  cases hcountry
  revert hpresent
  decide

end Manager

end MediaRefresh
