import MediaRefresh.Error
import MediaRefresh.Text.Blank
import MediaRefresh.Text.Cut
import MediaRefresh.Text.Folding

/-!
# Images: media types

Whether an answer to a request for an image carries one, and of which type.  The
reported type counts up to its first semicolon.  A page is never an image.  A
type that is not an image type falls back on the extension in the address, and a
missing one is accepted, as PNG, for addresses of an image cache only.
-/

set_option autoImplicit false

namespace MediaRefresh.MediaType

/-- The image types by extension. -/
def byExtension : List (String × String) :=
  [("jpg", "image/jpeg"), ("jpeg", "image/jpeg"), ("png", "image/png"), ("gif", "image/gif"),
   ("webp", "image/webp"), ("bmp", "image/bmp"), ("svg", "image/svg+xml"), ("tbn", "image/jpeg")]

/-- The last part of an address or path: behind its last slash, without query and
fragment. -/
def fileName (address : String) : String :=
  let path := Text.before (fun c => c == '?' || c == '#') address
  (Text.afterLast '/' path).getD path

/-- The extension in an address or path, in small letters. -/
def extension? (address : String) : Option String :=
  (Text.afterLast '.' (fileName address)).map Text.fold

/-- The image type that the extension of an address or path implies. -/
def ofAddress? (address : String) : Option String :=
  (extension? address).bind fun e => byExtension.lookup e

/-- A reported type without its parameters, in small letters; an empty one counts
as missing. -/
def reported? (contentType : Option String) : Option String :=
  (contentType.map fun t => Text.fold (Text.trim (Text.before (· == ';') t))).filter (· ≠ "")

/-- Whether an address is one of an image cache. -/
def isImageCache (url : String) : Bool := Text.occurs "/imagecache/" (Text.fold url)

/-- The type of the image that was received from `url`. -/
def validate (url : String) (contentType : Option String) : Except RefreshError String :=
  match reported? contentType with
  | none =>
    if isImageCache url then .ok "image/png"
    else .error (.invalidImage url "content type not set")
  | some t =>
    if t = "text/html" then .error (.invalidImage url t)
    else if "image/".toList.isPrefixOf t.toList then .ok t
    else match ofAddress? url with
      | some t => .ok t
      | none => .error (.invalidImage url t)

end MediaRefresh.MediaType
