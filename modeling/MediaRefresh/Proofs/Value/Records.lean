import Mathlib.Tactic.Simproc.ExistsAndEq
import MediaRefresh.Event.Basic
import MediaRefresh.Image.Remote
import MediaRefresh.Refresh.Tracker
import MediaRefresh.Search.Hit
import MediaRefresh.Settings.Config
import MediaRefresh.Proofs.Value.Parts

/-!
# Values: reading records back

Every record that is exchanged or kept as settings is read back from its document, written as
it is or redrawn, and a field may be missing exactly where it is marked.  Each proof lists the
fields of the record with what is known of their readers.  A type whose numbers are bounded,
or whose reals JSON may lack, comes with the values that its fields can hold.
-/

set_option autoImplicit false

namespace MediaRefresh

open Form Numeric

variable (d : Dialect)

/-! ## Items -/

namespace ItemImage

/-- The values that the fields of an image can hold. -/
structure Fits (i : ItemImage) : Prop where
  width : ∀ n ∈ i.width, n < twoTo 32
  height : ∀ n ∈ i.height, n < twoTo 32

theorem readBack {i : ItemImage} (h : i.Fits) : ReadBack form (decode d) i := by
  refine readBack_of_rows
    [.required "path" (stands_text i.path).reads,
     .required "image_type" (i.imageType.stands d).reads,
     .optional "width" fun n hn => stands_nat32 (h.width n hn),
     .optional "height" fun n hn => stands_nat32 (h.height n hn)]
    rfl (show names.Nodup by decide) fun given => ?_
  cases i
  simp only [decode, Fields.of?_record, bind_eq_some_iff, Option.pure_def, Option.some.injEq,
    mk.injEq, existsAndEq, true_and]
  rfl

end ItemImage

namespace Item

/-- The values that the fields of an item can hold. -/
structure Fits (i : Item) : Prop where
  productionYear : ∀ year ∈ i.productionYear, IsInt32 year
  communityRating : ∀ x ∈ i.communityRating, x.isFinite = true
  images : ∀ image ∈ i.images, image.Fits
  lastRefreshed : ∀ t ∈ i.lastRefreshed, t.OnClock

theorem readBack {i : Item} (h : i.Fits) : ReadBack form (decode d) i := by
  refine readBack_of_rows
    [.required "id" i.id.stands.reads,
     .required "kind" (i.kind.stands d).reads,
     .required "name" (stands_text i.name).reads,
     .optional "path" fun s _ => stands_text s,
     .optional "parent_id" fun id _ => id.stands,
     .optional "owner_id" fun id _ => id.stands,
     .required "is_locked" (stands_bool i.locked).reads,
     .required "provider_ids" i.externalIds.reads,
     .optional "production_year" fun year hyear => stands_int32 (h.productionYear year hyear),
     .optional "premiere_date" fun day _ => day.stands,
     .optional "overview" fun s _ => stands_text s,
     .required "genres" (stands_texts i.genres).reads,
     .optional "community_rating" fun x hx => stands_single (h.communityRating x hx),
     .required "images"
       (reads_list fun image himage => (ItemImage.readBack d (h.images image himage)).redrawn),
     .optional "preferred_metadata_language" fun s _ => stands_text s,
     .optional "preferred_metadata_country_code" fun s _ => stands_text s,
     .optional "music_artist_id" fun id _ => id.stands,
     .optional "date_last_refreshed" fun t ht => Calendar.Instant.stands (h.lastRefreshed t ht)]
    rfl (show names.Nodup by decide) fun given => ?_
  cases i
  simp only [decode, Fields.of?_record, bind_eq_some_iff, Option.pure_def, Option.some.injEq,
    mk.injEq, existsAndEq, true_and]
  rfl

end Item

/-! ## Lookups, results and searches -/

namespace LookupInfo

/-- The values that the fields of a lookup can hold. -/
structure Fits (i : LookupInfo) : Prop where
  year : ∀ year ∈ i.year, IsInt32 year

theorem readBack {i : LookupInfo} (h : i.Fits) : ReadBack form (decode d) i := by
  refine readBack_of_rows
    [.required "name" (stands_text i.name).reads,
     .optional "year" fun year hyear => stands_int32 (h.year year hyear),
     .optional "path" fun s _ => stands_text s,
     .required "provider_ids" i.externalIds.reads,
     .optional "metadata_language" fun s _ => stands_text s,
     .optional "metadata_country_code" fun s _ => stands_text s,
     .required "is_automated" (stands_bool i.automated).reads]
    rfl (show names.Nodup by decide) fun given => ?_
  cases i
  simp only [decode, Fields.of?_record, bind_eq_some_iff, Option.pure_def, Option.some.injEq,
    mk.injEq, existsAndEq, true_and]
  rfl

end LookupInfo

namespace MetadataResult

/-- The values that the fields of a result can hold. -/
structure Fits (r : MetadataResult) : Prop where
  productionYear : ∀ year ∈ r.productionYear, IsInt32 year
  communityRating : ∀ x ∈ r.communityRating, x.isFinite = true

theorem readBack {r : MetadataResult} (h : r.Fits) : ReadBack form (decode d) r := by
  refine readBack_of_rows
    [.optional "name" fun s _ => stands_text s,
     .optional "overview" fun s _ => stands_text s,
     .optional "production_year" fun year hyear => stands_int32 (h.productionYear year hyear),
     .optional "premiere_date" fun day _ => day.stands,
     .required "genres" (stands_texts r.genres).reads,
     .optional "community_rating" fun x hx => stands_single (h.communityRating x hx),
     .required "provider_ids" r.externalIds.reads]
    rfl (show names.Nodup by decide) fun given => ?_
  cases r
  simp only [decode, Fields.of?_record, bind_eq_some_iff, Option.pure_def, Option.some.injEq,
    mk.injEq, existsAndEq, true_and]
  rfl

end MetadataResult

namespace SearchHit

/-- The values that the fields of a hit can hold. -/
structure Fits (hit : SearchHit) : Prop where
  productionYear : ∀ year ∈ hit.productionYear, IsInt32 year

theorem readBack {hit : SearchHit} (h : hit.Fits) : ReadBack form (decode d) hit := by
  refine readBack_of_rows
    [.required "name" (stands_text hit.name).reads,
     .optional "production_year" fun year hyear => stands_int32 (h.productionYear year hyear),
     .optional "premiere_date" fun day _ => day.stands,
     .optional "overview" fun s _ => stands_text s,
     .optional "image_url" fun s _ => stands_text s,
     .required "provider_ids" hit.externalIds.reads,
     .optional "search_provider_name" fun s _ => stands_text s]
    rfl (show names.Nodup by decide) fun given => ?_
  cases hit
  simp only [decode, Fields.of?_record, bind_eq_some_iff, Option.pure_def, Option.some.injEq,
    mk.injEq, existsAndEq, true_and]
  rfl

end SearchHit

theorem SearchQuery.readBack {q : SearchQuery} (h : q.info.Fits) :
    ReadBack form (decode d) q := by
  refine readBack_of_rows
    [.optional "item_id" fun id _ => id.stands,
     .required "kind" (q.kind.stands d).reads,
     .required "search_info" (LookupInfo.readBack d h).redrawn,
     .optional "search_provider_name" fun s _ => stands_text s,
     .required "include_disabled_providers" (stands_bool q.includeDisabled).reads]
    rfl (show names.Nodup by decide) fun given => ?_
  cases q
  simp only [decode, Fields.of?_record, bind_eq_some_iff, Option.pure_def, Option.some.injEq,
    mk.injEq, existsAndEq, true_and]
  rfl

/-! ## Remote images -/

namespace RemoteImage

/-- The values that the fields of a candidate can hold. -/
structure Fits (i : RemoteImage) : Prop where
  width : ∀ n ∈ i.width, n < twoTo 32
  height : ∀ n ∈ i.height, n < twoTo 32
  communityRating : ∀ x ∈ i.communityRating, x.isFinite = true
  votes : ∀ n ∈ i.votes, n < twoTo 32

theorem readBack {i : RemoteImage} (h : i.Fits) : ReadBack form (decode d) i := by
  refine readBack_of_rows
    [.required "provider_name" (stands_text i.provider).reads,
     .required "url" (stands_text i.url).reads,
     .optional "thumbnail_url" fun s _ => stands_text s,
     .required "image_type" (i.imageType.stands d).reads,
     .optional "language" fun s _ => stands_text s,
     .optional "width" fun n hn => stands_nat32 (h.width n hn),
     .optional "height" fun n hn => stands_nat32 (h.height n hn),
     .optional "community_rating" fun x _ => stands_double x,
     .optional "vote_count" fun n hn => stands_nat32 (h.votes n hn)]
    rfl (show names.Nodup by decide) fun given => ?_
  cases i
  simp only [decode, Fields.of?_record, bind_eq_some_iff, Option.pure_def, Option.some.injEq,
    mk.injEq, existsAndEq, true_and]
  rfl

end RemoteImage

theorem RemoteImageQuery.readBack (q : RemoteImageQuery) : ReadBack form (decode d) q := by
  refine readBack_of_rows
    [.optional "provider_name" fun s _ => stands_text s,
     .optional "image_type" fun t _ => t.stands d,
     .required "include_all_languages" (stands_bool q.allLanguages).reads]
    rfl (show names.Nodup by decide) fun given => ?_
  cases q
  simp only [decode, Fields.of?_record, bind_eq_some_iff, Option.pure_def, Option.some.injEq,
    mk.injEq, existsAndEq, true_and]
  rfl

/-! ## Refreshes -/

theorem RefreshOptions.readBack (o : RefreshOptions) : ReadBack form (decode d) o := by
  refine readBack_of_rows
    [.defaulted "metadata_refresh_mode" (o.metadataMode.stands d).reads beq_iff_eq,
     .defaulted "image_refresh_mode" (o.imageMode.stands d).reads beq_iff_eq,
     .flag "replace_all_metadata" o.replaceMetadata,
     .flag "replace_all_images" o.replaceImages,
     .list "replace_image_types" (ImageType.stands_list d o.replaceTypes).reads,
     .flag "force_save" o.forceSave,
     .flag "is_automated" o.automated]
    rfl (show names.Nodup by decide) fun given => ?_
  cases o
  simp only [decode, Fields.of?_record, bind_eq_some_iff, Option.pure_def, Option.some.injEq,
    mk.injEq, existsAndEq, true_and]
  rfl

theorem ActiveRefresh.readBack (a : ActiveRefresh) : ReadBack form (decode d) a := by
  refine readBack_of_rows
    [.required "item_id" a.item.stands.reads,
     .required "progress" (stands_double a.progress).reads]
    rfl (show ["item_id", "progress"].Nodup by decide) fun given => ?_
  cases a
  simp only [decode, Fields.of?_record, bind_eq_some_iff, Option.pure_def, Option.some.injEq,
    mk.injEq, existsAndEq, true_and]
  rfl

namespace RefreshEvent

/-- The progress of an event is finite. -/
def Fits : RefreshEvent → Prop
  | progressed _ progress => progress.isFinite = true
  | _ => True

variable {e : RefreshEvent} {tag : String} {v : Value} {given : List (String × Value)}

/-- No tag is read as an event with another one. -/
theorem tag_of_decodeTagged (h : decodeTagged tag v = some e) : e.tag = tag := by
  unfold decodeTagged at h
  split at h
  case h_6 => cases h
  all_goals simp only [bind_eq_some_iff, Option.pure_def, Option.some.injEq] at h
  case h_4 =>
    obtain ⟨_, -, _, -, rfl⟩ := h
    rfl
  all_goals
    obtain ⟨_, -, _, -, _, -, rfl⟩ := h
    rfl

theorem decode_record_iff :
    decode (.record given) = some e ↔
      given.lookup "type" = some (.text e.tag) ∧ decodeTagged e.tag (.record given) = some e := by
  constructor
  · intro h
    unfold decode at h
    dsimp only at h
    split at h
    next _ tag hlookup =>
      obtain rfl := tag_of_decodeTagged h
      exact ⟨hlookup, h⟩
    · cases h
  · rintro ⟨hlookup, h⟩
    simp only [decode, hlookup, h]

theorem readBack (e : RefreshEvent) : ReadBack form decode e := by
  cases e with
  | queued item priority =>
    refine readBack_of_rows
      [.tag "type" "refresh_queued", .required "item_id" item.stands.reads,
       .required "priority" (priority.stands .tagged).reads]
      rfl (show ["type", "item_id", "priority"].Nodup by decide) fun given => ?_
    simp only [decode_record_iff, tag, decodeTagged, Fields.of?_record, bind_eq_some_iff,
      Option.pure_def, Option.some.injEq, queued.injEq, existsAndEq, true_and]
    rfl
  | started item name =>
    refine readBack_of_rows
      [.tag "type" "refresh_started", .required "item_id" item.stands.reads,
       .required "name" (stands_text name).reads]
      rfl (show ["type", "item_id", "name"].Nodup by decide) fun given => ?_
    simp only [decode_record_iff, tag, decodeTagged, Fields.of?_record, bind_eq_some_iff,
      Option.pure_def, Option.some.injEq, started.injEq, existsAndEq, true_and]
    rfl
  | progressed item progress =>
    refine readBack_of_rows
      [.tag "type" "refresh_progress", .required "item_id" item.stands.reads,
       .required "progress" (stands_double progress).reads]
      rfl (show ["type", "item_id", "progress"].Nodup by decide) fun given => ?_
    simp only [decode_record_iff, tag, decodeTagged, Fields.of?_record, bind_eq_some_iff,
      Option.pure_def, Option.some.injEq, progressed.injEq, existsAndEq, true_and]
    rfl
  | completed item =>
    refine readBack_of_rows
      [.tag "type" "refresh_completed", .required "item_id" item.stands.reads]
      rfl (show ["type", "item_id"].Nodup by decide) fun given => ?_
    simp only [decode_record_iff, tag, decodeTagged, Fields.of?_record, bind_eq_some_iff,
      Option.pure_def, Option.some.injEq, completed.injEq, existsAndEq, true_and]
    rfl
  | updated item changes =>
    have hchanges : Stands _ (Decode.list (Change.decode .tagged)) changes :=
      Form.stands_list fun c _ => c.stands .tagged
    refine readBack_of_rows
      [.tag "type" "item_updated", .required "item_id" item.stands.reads,
       .required "changes" hchanges.reads]
      rfl (show ["type", "item_id", "changes"].Nodup by decide) fun given => ?_
    simp only [decode_record_iff, tag, decodeTagged, Fields.of?_record, bind_eq_some_iff,
      Option.pure_def, Option.some.injEq, updated.injEq, existsAndEq, true_and]
    rfl

end RefreshEvent

/-! ## Settings -/

theorem TypeBlock.readBack (b : TypeBlock) : ReadBack form (decode d) b := by
  refine readBack_of_rows
    [.required "item_kind" (b.kind.stands d).reads,
     .list "metadata_fetchers" (stands_texts b.metadataFetchers).reads,
     .list "metadata_fetcher_order" (stands_texts b.metadataFetcherOrder).reads,
     .list "image_fetchers" (stands_texts b.imageFetchers).reads,
     .list "image_fetcher_order" (stands_texts b.imageFetcherOrder).reads]
    rfl (show names.Nodup by decide) fun given => ?_
  cases b
  simp only [decode, Fields.of?_record, bind_eq_some_iff, Option.pure_def, Option.some.injEq,
    mk.injEq, existsAndEq, true_and]
  rfl

theorem LibraryOptions.readBack (o : LibraryOptions) : ReadBack form (decode d) o := by
  refine readBack_of_rows
    [.defaulted "enable_internet_providers" (stands_bool o.internet).reads .rfl,
     .flag "save_local_metadata" o.saveLocal,
     .optional "local_metadata_reader_order" fun names _ => stands_texts names,
     .optional "metadata_savers" fun names _ => stands_texts names,
     .list "type_options" (reads_list fun b _ => (b.readBack d).redrawn)]
    rfl (show names.Nodup by decide) fun given => ?_
  cases o
  simp only [decode, Fields.of?_record, bind_eq_some_iff, Option.pure_def, Option.some.injEq,
    mk.injEq, existsAndEq, true_and, Fields.optionalDefaulted_named]
  rfl

theorem KindOptions.readBack (o : KindOptions) : ReadBack form (decode d) o := by
  refine readBack_of_rows
    [.required "item_kind" (o.kind.stands d).reads,
     .list "disabled_metadata_fetchers" (stands_texts o.disabledMetadataFetchers).reads,
     .list "metadata_fetcher_order" (stands_texts o.metadataFetcherOrder).reads,
     .list "disabled_image_fetchers" (stands_texts o.disabledImageFetchers).reads,
     .list "image_fetcher_order" (stands_texts o.imageFetcherOrder).reads,
     .list "local_metadata_reader_order" (stands_texts o.readerOrder).reads,
     .list "disabled_metadata_savers" (stands_texts o.disabledSavers).reads]
    rfl (show names.Nodup by decide) fun given => ?_
  cases o
  simp only [decode, Fields.of?_record, bind_eq_some_iff, Option.pure_def, Option.some.injEq,
    mk.injEq, existsAndEq, true_and]
  rfl

theorem MetadataConfig.readBack (c : MetadataConfig) : ReadBack form (decode d) c := by
  refine readBack_of_rows
    [.defaulted "preferred_language" (stands_text c.language).reads beq_iff_eq,
     .defaulted "country_code" (stands_text c.country).reads beq_iff_eq,
     .defaulted "internal_metadata_path" (stands_text c.internalPath).reads beq_iff_eq,
     .list "type_options" (reads_list fun o _ => (o.readBack d).redrawn)]
    rfl (show names.Nodup by decide) fun given => ?_
  cases c
  simp only [decode, Fields.of?_record, bind_eq_some_iff, Option.pure_def, Option.some.injEq,
    mk.injEq, existsAndEq, true_and]
  rfl

namespace Config

/-- The pause of a configuration has 64 bits. -/
def Fits (c : Config) : Prop := c.throttle < twoTo 64

/-- The written form of the pause. -/
def throttleForm (n : Nat) : Form :=
  .record [Form.defaulted "throttle_ms" (n == standardThrottle) (.leaf (.integer n))]

theorem readBack_throttle {n : Nat} (h : n < twoTo 64) :
    ReadBack throttleForm (decodeThrottle d) n := by
  refine readBack_of_rows [.defaulted "throttle_ms" (stands_nat64 h).reads beq_iff_eq]
    rfl (show ["throttle_ms"].Nodup by decide) fun given => ?_
  exact (and_iff_left trivial).symm

theorem readBack {c : Config} (h : c.Fits) : ReadBack form (decode d) c := by
  refine readBack_of_rows
    [.defaulted "metadata" (c.metadata.readBack d).redrawn beq_iff_eq,
     .defaulted "refresh" (readBack_throttle d h).redrawn beq_iff_eq]
    rfl (show ["metadata", "refresh"].Nodup by decide) fun given => ?_
  cases c
  simp only [decode, Fields.of?_record, bind_eq_some_iff, Option.pure_def, Option.some.injEq,
    mk.injEq, existsAndEq, true_and]
  rfl

end Config

/-! ## Summaries of plugins -/

theorem Plugin.readBack (p : Plugin) : ReadBack form (decode d) p := by
  refine readBack_of_rows
    [.required "name" (stands_text p.name).reads,
     .required "plugin_type" (p.role.stands d).reads]
    rfl (show ["name", "plugin_type"].Nodup by decide) fun given => ?_
  cases p
  simp only [decode, Fields.of?_record, bind_eq_some_iff, Option.pure_def, Option.some.injEq,
    mk.injEq, existsAndEq, true_and]
  rfl

theorem PluginSummary.readBack (s : PluginSummary) : ReadBack form (decode d) s := by
  refine readBack_of_rows
    [.required "item_kind" (s.kind.stands d).reads,
     .required "plugins" (reads_list fun p _ => (p.readBack d).redrawn),
     .required "supported_image_types" (ImageType.stands_list d s.imageTypes).reads]
    rfl (show ["item_kind", "plugins", "supported_image_types"].Nodup by decide) fun given => ?_
  cases s
  simp only [decode, Fields.of?_record, bind_eq_some_iff, Option.pure_def, Option.some.injEq,
    mk.injEq, existsAndEq, true_and]
  rfl

/-! ## Every record -/

/-- Whatever the dialect, every record whose fields hold what they can hold is read back. -/
theorem records_read_back (d : Dialect) :
    (∀ i : ItemImage, i.Fits → ReadBack ItemImage.form (ItemImage.decode d) i) ∧
    (∀ i : Item, i.Fits → ReadBack Item.form (Item.decode d) i) ∧
    (∀ ids : ExternalIds, ReadBack ExternalIds.form ExternalIds.decode ids) ∧
    (∀ o : RefreshOptions, ReadBack RefreshOptions.form (RefreshOptions.decode d) o) ∧
    (∀ i : LookupInfo, i.Fits → ReadBack LookupInfo.form (LookupInfo.decode d) i) ∧
    (∀ r : MetadataResult, r.Fits → ReadBack MetadataResult.form (MetadataResult.decode d) r) ∧
    (∀ h : SearchHit, h.Fits → ReadBack SearchHit.form (SearchHit.decode d) h) ∧
    (∀ q : SearchQuery, q.info.Fits → ReadBack SearchQuery.form (SearchQuery.decode d) q) ∧
    (∀ i : RemoteImage, i.Fits → ReadBack RemoteImage.form (RemoteImage.decode d) i) ∧
    (∀ q : RemoteImageQuery,
      ReadBack RemoteImageQuery.form (RemoteImageQuery.decode d) q) ∧
    (∀ e : RefreshEvent, e.Fits → ReadBack RefreshEvent.form RefreshEvent.decode e) ∧
    (∀ a : ActiveRefresh, a.progress.isFinite = true →
      ReadBack ActiveRefresh.form (ActiveRefresh.decode d) a) ∧
    (∀ b : TypeBlock, ReadBack TypeBlock.form (TypeBlock.decode d) b) ∧
    (∀ o : LibraryOptions, ReadBack LibraryOptions.form (LibraryOptions.decode d) o) ∧
    (∀ o : KindOptions, ReadBack KindOptions.form (KindOptions.decode d) o) ∧
    (∀ p : Plugin, ReadBack Plugin.form (Plugin.decode d) p) ∧
    (∀ s : PluginSummary, ReadBack PluginSummary.form (PluginSummary.decode d) s) ∧
    (∀ c : MetadataConfig, ReadBack MetadataConfig.form (MetadataConfig.decode d) c) ∧
    (∀ n < twoTo 64, ReadBack Config.throttleForm (Config.decodeThrottle d) n) ∧
    (∀ c : Config, c.Fits → ReadBack Config.form (Config.decode d) c) :=
  ⟨fun _ => ItemImage.readBack d, fun _ => Item.readBack d, ExternalIds.readBack,
    RefreshOptions.readBack d, fun _ => LookupInfo.readBack d,
    fun _ => MetadataResult.readBack d, fun _ => SearchHit.readBack d,
    fun _ => SearchQuery.readBack d, fun _ => RemoteImage.readBack d,
    RemoteImageQuery.readBack d, fun e _ => e.readBack, fun a _ => a.readBack d,
    TypeBlock.readBack d, LibraryOptions.readBack d, KindOptions.readBack d,
    Plugin.readBack d, PluginSummary.readBack d, MetadataConfig.readBack d,
    fun _ => Config.readBack_throttle d, fun _ => Config.readBack d⟩

/-- A film with two ids, a rating and an image without a height. -/
def shortFilm : Item :=
  { Item.bare .zero .movie "Short" with
    path := some "/films/short.mkv"
    externalIds := .ofEntries [("Imdb", "tt7"), ("Tmdb", "7")]
    productionYear := some 1999
    communityRating := some (.ofInt 7)
    images := [⟨"/films/short.jpg", .primary, some 600, none⟩]
    lastRefreshed := some ⟨default, 3, 4, 5, 0⟩ }

/-- The film with its fields turned around, without what is `null`, and with a field of a later
version. -/
def shortFilmRedrawn : Value :=
  .record
    [("tags", .list []),
     ("date_last_refreshed", .text "1970-01-01T03:04:05Z"),
     ("images", .list [.record
       [("width", .integer 600), ("image_type", .text "primary"),
        ("path", .text "/films/short.jpg")]]),
     ("community_rating", .real (.ofInt 7)),
     ("genres", .list []),
     ("production_year", .integer 1999),
     ("provider_ids", .record [("Tmdb", .text "7"), ("Imdb", .text "tt7")]),
     ("is_locked", .bool false),
     ("path", .text "/films/short.mkv"),
     ("name", .text "Short"),
     ("kind", .text "movie"),
     ("id", .text "00000000-0000-0000-0000-000000000000")]

theorem shortFilm_fits : shortFilm.Fits where
  productionYear := by decide
  communityRating := by decide
  images := by
    intro image himage
    obtain rfl := List.mem_singleton.mp himage
    exact ⟨by decide, by decide⟩
  lastRefreshed := by
    rintro t ⟨⟩
    exact ⟨by decide, by decide, by decide, by decide⟩

theorem shortFilmRedrawn_redrawn : shortFilm.form.Redrawn shortFilmRedrawn := by
  have hids : shortFilm.externalIds.form.Redrawn
      (.record [("Tmdb", .text "7"), ("Imdb", .text "tt7")]) :=
    .table (List.reverse_perm _).symm
  have himage : (ItemImage.form ⟨"/films/short.jpg", .primary, some 600, none⟩).Redrawn
      (.record [("width", .integer 600), ("image_type", .text "primary"),
        ("path", .text "/films/short.jpg")]) :=
    .record (.keep (.leaf _) (.keep (.leaf _) (.keep (.leaf _) (.leaveOut .nil))))
      (List.forall_mem_nil _) (List.reverse_perm _).symm
  exact .record
    (.keep (.leaf _) (.keep (.leaf _) (.keep (.leaf _) (.keep (.leaf _)
      (.leaveOut (.leaveOut (.keep (.leaf _) (.keep hids (.keep (.leaf _)
        (.leaveOut (.leaveOut (.keep (.leaf _) (.keep (.leaf _)
          (.keep (.list (.cons himage .nil)) (.leaveOut (.leaveOut (.leaveOut
            (.keep (.leaf _) .nil))))))))))))))))))
    (List.forall_mem_singleton.mpr (by decide)) (List.reverse_perm _).symm

theorem short_film_read_back : shortFilm.Fits ∧ shortFilm.form.Redrawn shortFilmRedrawn ∧
    Item.decode .exchange shortFilmRedrawn = some shortFilm :=
  ⟨shortFilm_fits, shortFilmRedrawn_redrawn,
    ((records_read_back .exchange).2.1 shortFilm shortFilm_fits).redrawn _
      shortFilmRedrawn_redrawn⟩

end MediaRefresh
