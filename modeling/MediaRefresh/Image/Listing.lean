import MediaRefresh.Image.Gather
import MediaRefresh.Refresh.Service

/-!
# Images: browsing and choosing by hand

Beside the automatic choice, a person may list the candidates of the remote
providers, preview one, and store the image at an address.
-/

set_option autoImplicit false

namespace MediaRefresh

variable {σ : Type}

/-! ## Fetching over HTTP -/

namespace HttpReply

/-- The standard reason of an error status. -/
def reasons : List (Nat × String) :=
  [(400, "Bad Request"), (401, "Unauthorized"), (402, "Payment Required"), (403, "Forbidden"),
   (404, "Not Found"), (405, "Method Not Allowed"), (406, "Not Acceptable"),
   (407, "Proxy Authentication Required"), (408, "Request Timeout"), (409, "Conflict"),
   (410, "Gone"), (411, "Length Required"), (412, "Precondition Failed"),
   (413, "Payload Too Large"), (414, "URI Too Long"), (415, "Unsupported Media Type"),
   (416, "Range Not Satisfiable"), (417, "Expectation Failed"), (418, "I'm a teapot"),
   (421, "Misdirected Request"), (422, "Unprocessable Entity"), (423, "Locked"),
   (424, "Failed Dependency"), (426, "Upgrade Required"), (428, "Precondition Required"),
   (429, "Too Many Requests"), (431, "Request Header Fields Too Large"),
   (451, "Unavailable For Legal Reasons"), (500, "Internal Server Error"),
   (501, "Not Implemented"), (502, "Bad Gateway"), (503, "Service Unavailable"),
   (504, "Gateway Timeout"), (505, "HTTP Version Not Supported"),
   (506, "Variant Also Negotiates"), (507, "Insufficient Storage"), (508, "Loop Detected"),
   (510, "Not Extended"), (511, "Network Authentication Required")]

/-- A status with its reason. -/
def statusText (status : Nat) : String :=
  toString status ++ " " ++ (reasons.lookup status).getD "<unknown status code>"

/-- Whether a header can be read as text: visible ASCII, spaces and tabs. -/
def isVisible (header : String) : Bool :=
  header.toList.all fun c => c == '\t' || (0x20 ≤ c.toNat && c.toNat < 0x7F)

/-- The image that a reply carries; an error status is a failure, and a header
that cannot be read counts as missing. -/
def image (reply : HttpReply) (url : String) : Except Failure ImageResponse :=
  if 400 ≤ reply.status ∧ reply.status < 600 then
    let side := if reply.status < 500 then "client" else "server"
    .error (Failure.within ("Image request failed for " ++ url)
      (.of ("HTTP status " ++ side ++ " error (" ++ statusText reply.status ++ ") for url (" ++
        reply.address ++ ")")))
  else
    .ok ⟨reply.contentType.filter isVisible, if reply.status = 304 then "" else reply.body⟩

end HttpReply

namespace RemoteImageQuery

/-- Whether a candidate is asked for, with the preferred language. -/
def admits (q : RemoteImageQuery) (preferred : String)
    (i : RemoteImage) : Bool :=
  q.imageType.all (· == i.imageType) &&
    (q.allLanguages || i.language.all fun l => Text.same l preferred)

end RemoteImageQuery

namespace Manager

/-- Fetches an image from a web server. -/
def fetchImage (m : Manager σ) (url : String) : RefreshM σ (Except Failure ImageResponse) := do
  match ← RefreshM.askUnnoted (m.host.httpGet url) with
  | .ok reply => return reply.image url
  | .error f => return .error (f.within ("Failed to request image " ++ url))

/-- Stores the image at an address as an item's image of a type. -/
def saveImageFrom (m : Manager σ) (item : Item) (url : String) (t : ImageType) :
    RefreshM σ ItemImage := do
  RefreshM.checkCancelled
  let answer ← m.fetchImage url
  RefreshM.checkCancelled
  match answer with
  | .error f => RefreshM.fail (.provider "http" f.text)
  | .ok response =>
    let mediaType ← RefreshM.settle (MediaType.validate url response.contentType)
    match ← m.storeImage item t mediaType response.data with
    | .error f => RefreshM.fail (.internal (f.within "saving image").text)
    | .ok image =>
      m.persist "updating item" (item.setImage image) (.only .imageUpdate)
      return image

/-! ## Candidates -/

/-- Fetches an image through the named provider. -/
def previewImage (m : Manager σ) (provider url : String) : RefreshM σ ImageResponse := do
  match m.providers.imageProvider? provider with
  | none => RefreshM.fail (.notFound "image provider" provider)
  | some p =>
    match ← p.downloadImage url with
    | .error f => RefreshM.fail (.provider p.name f.text)
    | .ok response =>
      let mediaType ← RefreshM.settle (MediaType.validate url response.contentType)
      return ⟨some mediaType, response.data⟩

/-- The remote image providers that could serve an item, disabled ones included. -/
def remoteImageProviders (m : Manager σ) (state : σ) (item : Item) : List (ImageProvider σ) :=
  (m.imageProviders state item .full true).filter (·.source == .remote)

/-- Asks the providers for candidates; one that fails has none.  They are asked together, and
their answers are put in the order of the list.  A call is one step here, so that the calls
stand in that order as well. -/
def listEach (item : Item) : List (ImageProvider σ) → RefreshM σ (List RemoteImage)
  | [] => pure []
  | p :: rest => do
    match ← p.listCandidates item with
    | .ok images => return images ++ (← listEach item rest)
    | .error _ => listEach item rest

/-- The candidates of the remote providers for an item, the best first. -/
def availableImages (m : Manager σ) (item : Item) (q : RemoteImageQuery) :
    RefreshM σ (List RemoteImage) := do
  let providers := ((m.remoteImageProviders (← get).state item).filter fun p =>
    q.provider.all fun name => Text.same p.name name).filter fun p =>
      q.imageType.all fun t => (p.types item).contains t
  RefreshM.checkCancelled
  let images ← listEach item providers
  let preferred := m.language item
  return RemoteImage.ordered preferred (images.filter (q.admits preferred))

end Manager

end MediaRefresh
