import MediaRefresh.Image.MediaType
import MediaRefresh.Proofs.Text.Cut

/-!
# Images: which type a received image has

What a content type says is its part before the first semicolon, without white space at its
ends and in small letters.  A page is never an image, and a type that is given out is accepted
again from anywhere as it is.  Where a content type names something else, nothing counts but
the extension of the file that the address leads to.
-/

set_option autoImplicit false

namespace MediaRefresh.MediaType

variable {url t m : String} {contentType : Option String}

/-! ## Types that are named -/

/-- What a content type names, which may be nothing. -/
def named (contentType : String) : String :=
  Text.fold (Text.trim (Text.before (· == ';') contentType))

/-- An image type in the form in which it is given out: in small letters, without parameters
and without white space at its ends. -/
structure Plain (m : String) : Prop where
  image : "image/".toList <+: m.toList
  small : Text.fold m = m
  whole : ';' ∉ m.toList
  trimmed : Text.trim m = m

instance (m : String) : Decidable (Plain m) :=
  decidable_of_iff ("image/".toList <+: m.toList ∧ Text.fold m = m ∧ ';' ∉ m.toList ∧
      Text.trim m = m)
    ⟨fun ⟨image, small, whole, trimmed⟩ => ⟨image, small, whole, trimmed⟩,
      fun ⟨image, small, whole, trimmed⟩ => ⟨image, small, whole, trimmed⟩⟩

theorem reported?_some (t : String) :
    reported? (some t) = if named t = "" then none else some (named t) := by
  unfold reported?
  rw [Option.map_some]
  change Option.filter _ (some (named t)) = _
  by_cases h : named t = "" <;> simp [h]

theorem exists_named_of_reported? {s : String} (h : reported? contentType = some s) :
    ∃ t, contentType = some t ∧ named t = s := by
  cases contentType with
  | none => cases h
  | some t =>
    rw [reported?_some, Option.ite_none_left_eq_some] at h
    exact ⟨t, rfl, Option.some.inj h.2⟩

theorem validate_congr {a b : Option String} (h : reported? a = reported? b) (url : String) :
    validate url a = validate url b := by
  unfold validate
  rw [h]

theorem plain_named (h : "image/".toList <+: (named t).toList) : Plain (named t) where
  image := h
  small := Text.fold_fold _
  whole := by
    intro hmem
    unfold named at hmem
    rw [Text.toList_fold, List.mem_map] at hmem
    obtain ⟨c, hc, hlower⟩ := hmem
    obtain rfl := Text.toLower_eq_semicolon hlower
    rw [Text.toList_trim] at hc
    have hbefore := Text.not_stops_of_mem_before (Text.trimChars_subset _ hc)
    simp at hbefore
  trimmed := by
    unfold named
    rw [Text.trim_fold, Text.trim_trim]

theorem plain_of_lookup {extension : String} (h : byExtension.lookup extension = some m) :
    Plain m := by
  have hall : ∀ row ∈ byExtension, Plain row.2 := by decide +kernel
  obtain ⟨before, after, hrows, -⟩ := List.lookup_eq_some_iff.mp h
  exact hall (extension, m) (by simp [hrows])

namespace Plain

theorem named_eq (h : Plain m) : named m = m := by
  have hbefore : Text.before (· == ';') m = m := by
    refine Text.before_eq_self fun c hc => ?_
    rw [beq_eq_false_iff_ne]
    rintro rfl
    exact h.whole hc
  unfold named
  rw [hbefore, h.trimmed, h.small]

theorem ne_of_not_image {other : String} (h : Plain m)
    (hother : ¬ "image/".toList <+: other.toList) : m ≠ other := by
  rintro rfl
  exact hother h.image

/-- An image type that has been given out is accepted as it is. -/
theorem validate_eq (h : Plain m) (url : String) : validate url (some m) = .ok m := by
  have hempty : m ≠ "" := h.ne_of_not_image (by decide)
  have hpage : m ≠ "text/html" := h.ne_of_not_image (by decide)
  have hreported : reported? (some m) = some m := by
    rw [reported?_some, h.named_eq, if_neg hempty]
  unfold validate
  rw [hreported]
  dsimp only
  rw [if_neg hpage, if_pos (List.isPrefixOf_iff_prefix.mpr h.image)]

end Plain

/-- One case for each way in which a type is found: that of an image cache, the named one, and
that of the extension. -/
theorem plain_of_validate (h : validate url contentType = .ok m) : Plain m := by
  unfold validate at h
  split at h
  · split at h
    · cases h
      decide +kernel
    · cases h
  · rename_i s hreported
    split at h
    · cases h
    · split at h
      · rename_i himage
        obtain ⟨t, -, rfl⟩ := exists_named_of_reported? hreported
        obtain rfl := Except.ok.inj h
        exact plain_named (List.isPrefixOf_iff_prefix.mp himage)
      · split at h
        · rename_i found hfound
          cases h
          obtain ⟨extension, -, hlookup⟩ := Option.bind_eq_some_iff.mp hfound
          exact plain_of_lookup hlookup
        · cases h

/-! ## Extensions of addresses -/

/-- An address leads through a directory, which is empty or ends with a slash, to a file.  A
query or a fragment may be appended. -/
structure Leads (address directory file appended : String) : Prop where
  whole : address = directory ++ file ++ appended
  directory_closed : directory = "" ∨ ∃ path, directory = path ++ "/"
  path_plain : ∀ c ∈ (directory ++ file).toList, c ≠ '?' ∧ c ≠ '#'
  file_plain : '/' ∉ file.toList
  appended_marked : ∀ c ∈ appended.toList.head?, c = '?' ∨ c = '#'

/-- The extension of a file, in small letters, is what stands behind its last point. -/
inductive Extension : String → Option String → Prop where
  | missing {file : String} (h : '.' ∉ file.toList) : Extension file none
  | last (name : String) {ending : String} (h : '.' ∉ ending.toList) :
      Extension (name ++ "." ++ ending) (some (Text.fold ending))

theorem Leads.fileName_eq {directory file appended : String}
    (h : Leads url directory file appended) : fileName url = file := by
  have hpath : Text.before (fun c => c == '?' || c == '#') url = directory ++ file := by
    rw [h.whole]
    refine Text.before_append (fun c hc => ?_) fun c hc => ?_
    · simpa using h.path_plain c hc
    · simpa using h.appended_marked c hc
  unfold fileName
  rw [hpath]
  dsimp only
  obtain rfl | ⟨path, rfl⟩ := h.directory_closed
  · rw [String.empty_append, Text.afterLast_eq_none h.file_plain, Option.getD_none]
  · have hlast : Text.afterLast '/' (path ++ "/" ++ file) = some file :=
      Text.afterLast_append h.file_plain
    rw [hlast, Option.getD_some]

theorem Extension.extension?_eq {extension : Option String}
    (h : Extension (fileName url) extension) : extension? url = extension := by
  unfold extension?
  generalize fileName url = file at h
  cases h with
  | missing hpoint => rw [Text.afterLast_eq_none hpoint, Option.map_none]
  | @last name ending hpoint =>
    have hlast : Text.afterLast '.' (name ++ "." ++ ending) = some ending :=
      Text.afterLast_append hpoint
    rw [hlast, Option.map_some]

theorem exists_leads (url : String) :
    ∃ directory file appended, Leads url directory file appended := by
  obtain ⟨appended, hwhole, hmarked⟩ :=
    Text.exists_before_append (fun c => c == '?' || c == '#') url
  have hplain : ∀ c ∈ (Text.before (fun c => c == '?' || c == '#') url).toList,
      c ≠ '?' ∧ c ≠ '#' := fun c hc => by simpa using Text.not_stops_of_mem_before hc
  have hstart : ∀ c ∈ appended.toList.head?, c = '?' ∨ c = '#' :=
    fun c hc => by simpa using hmarked c hc
  generalize Text.before (fun c => c == '?' || c == '#') url = path at hwhole hplain
  by_cases hslash : '/' ∈ path.toList
  · obtain ⟨front, file, rfl, hfile⟩ := Text.exists_append_of_mem hslash
    exact ⟨front ++ "/", file, appended, hwhole, .inr ⟨front, rfl⟩, hplain, hfile, hstart⟩
  · refine ⟨"", path, appended, ?_, .inl rfl, ?_, hslash, hstart⟩
    · rw [String.empty_append, ← hwhole]
    · rwa [String.empty_append]

theorem exists_extension (file : String) : ∃ extension, Extension file extension := by
  by_cases hpoint : '.' ∈ file.toList
  · obtain ⟨name, ending, rfl, hending⟩ := Text.exists_append_of_mem hpoint
    exact ⟨_, .last name hending⟩
  · exact ⟨none, .missing hpoint⟩

/-- Where something else than an image is named, the extension decides. -/
theorem toOption_validate_of_other (hpresent : named t ≠ "") (hpage : named t ≠ "text/html")
    (himage : ¬ "image/".toList <+: (named t).toList) (url : String) :
    (validate url (some t)).toOption = (extension? url).bind fun e => byExtension.lookup e := by
  have hreported : reported? (some t) = some (named t) := by
    rw [reported?_some, if_neg hpresent]
  change _ = ofAddress? url
  unfold validate
  rw [hreported]
  dsimp only
  rw [if_neg hpage, if_neg (mt List.isPrefixOf_iff_prefix.mp himage)]
  cases ofAddress? url with
  | none => rfl
  | some found => rfl

/-- A content type counts by what it names only, and one that names nothing as a missing one.
A page is rejected from anywhere.  Every type that is given out is an image type in plain form,
and is given out again when it is reported with any address.  Where something else is named,
the address counts by the extension of the file it leads to only: it is rejected without one
or with an unknown one, whatever stands in front of the file or is appended. -/
theorem type_named_or_implied :
    (∀ url t t', named t = named t' → validate url (some t) = validate url (some t')) ∧
      (∀ url t, named t = "" → validate url (some t) = validate url none) ∧
      (∀ url t, named t = "text/html" →
        validate url (some t) = .error (.invalidImage url "text/html")) ∧
      (∀ url contentType m, validate url contentType = .ok m →
        Plain m ∧ ∀ other, validate other (some m) = .ok m) ∧
      (∀ t, named t ≠ "" → named t ≠ "text/html" → ¬ "image/".toList <+: (named t).toList →
        ∀ url directory file appended extension, Leads url directory file appended →
          Extension file extension →
          (validate url (some t)).toOption = extension.bind fun e => byExtension.lookup e) ∧
      ∀ url, ∃ directory file appended extension, Leads url directory file appended ∧
        Extension file extension := by
  refine ⟨fun url t t' h => ?_, fun url t h => ?_, fun url t h => ?_, fun url _ m h => ?_,
    fun t hpresent hpage himage url directory file appended extension hleads hextension => ?_,
    fun url => ?_⟩
  · exact validate_congr (by rw [reported?_some, reported?_some, h]) url
  · exact validate_congr (by rw [reported?_some, if_pos h]; rfl) url
  · have hreported : reported? (some t) = some "text/html" := by
      rw [reported?_some, h, if_neg (by decide)]
    unfold validate
    rw [hreported]
    rfl
  · have hplain := plain_of_validate h
    exact ⟨hplain, hplain.validate_eq⟩
  · rw [← hleads.fileName_eq] at hextension
    rw [toOption_validate_of_other hpresent hpage himage, hextension.extension?_eq]
  · obtain ⟨directory, file, appended, hleads⟩ := exists_leads url
    obtain ⟨extension, hextension⟩ := exists_extension file
    exact ⟨directory, file, appended, extension, hleads, hextension⟩

/-- The type of an image that is sent as bytes of any kind is that of its file, whatever the
directories, the query and the name that is suggested look like. -/
theorem untyped_poster_is_jpeg :
    Leads "https://img.example/p.png/poster.JPG?w=500#x.gif" "https://img.example/p.png/"
        "poster.JPG" "?w=500#x.gif" ∧
      Extension "poster.JPG" (some "jpg") ∧
      (validate "https://img.example/p.png/poster.JPG?w=500#x.gif"
        (some "Application/Octet-Stream; name=poster.webp")).toOption = some "image/jpeg" := by
  have hleads : Leads "https://img.example/p.png/poster.JPG?w=500#x.gif"
      "https://img.example/p.png/" "poster.JPG" "?w=500#x.gif" :=
    { whole := by decide +kernel
      directory_closed := .inr ⟨"https://img.example/p.png", by decide +kernel⟩
      path_plain := by simp
      file_plain := by simp
      appended_marked := by simp }
  have hfile : "poster.JPG" = "poster" ++ "." ++ "JPG" := by decide +kernel
  have hfold : "jpg" = Text.fold "JPG" := by decide +kernel
  have hextension : Extension "poster.JPG" (some "jpg") := by
    rw [hfile, hfold]
    exact .last "poster" (by decide)
  obtain ⟨-, -, -, -, himplied, -⟩ := type_named_or_implied
  exact ⟨hleads, hextension,
    himplied "Application/Octet-Stream; name=poster.webp" (by decide +kernel) (by decide +kernel)
      (by decide +kernel) _ _ _ _ _ hleads hextension⟩

end MediaRefresh.MediaType
