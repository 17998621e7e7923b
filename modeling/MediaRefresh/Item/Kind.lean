import MediaRefresh.Text.Folding
import MediaRefresh.Value.Decode

/-!
# Items: kinds

What an item of the library is.  A kind has one name; on the command of a person
the name is read in any case, in a document only as it stands.
-/

set_option autoImplicit false

namespace MediaRefresh

/-- The kind of a library item. -/
inductive ItemKind where
  | movie
  /-- usually owned by a movie or series -/
  | trailer
  /-- a set of movies -/
  | boxSet
  | series
  | season
  | episode
  | musicAlbum
  | musicArtist
  /-- an audio track -/
  | audio
  | audioBook
  | book
  | musicVideo
  /-- a video of no particular kind -/
  | video
  | person
  /-- a studio or network -/
  | studio
  /-- a folder on disk -/
  | folder
  /-- a library root that groups physical folders -/
  | collectionFolder
  deriving DecidableEq, Repr, Inhabited

namespace ItemKind

/-- Every kind, in declaration order. -/
def all : List ItemKind :=
  [movie, trailer, boxSet, series, season, episode, musicAlbum, musicArtist, audio, audioBook,
   book, musicVideo, video, person, studio, folder, collectionFolder]

theorem mem_all (k : ItemKind) : k ∈ all := by cases k <;> decide

/-- The kinds that a summary of plugins lists, in display order. -/
def summarised : List ItemKind :=
  [movie, boxSet, book, series, season, episode, musicAlbum, musicArtist, audio, audioBook,
   studio, musicVideo, video]

/-- The name of a kind. -/
def name : ItemKind → String
  | movie => "movie"
  | trailer => "trailer"
  | boxSet => "boxset"
  | series => "series"
  | season => "season"
  | episode => "episode"
  | musicAlbum => "musicalbum"
  | musicArtist => "musicartist"
  | audio => "audio"
  | audioBook => "audiobook"
  | book => "book"
  | musicVideo => "musicvideo"
  | video => "video"
  | person => "person"
  | studio => "studio"
  | folder => "folder"
  | collectionFolder => "collectionfolder"

/-- Whether items of the kind hold children that can be validated. -/
def isFolder : ItemKind → Bool
  | folder | collectionFolder | boxSet | series | season | musicAlbum | musicArtist => true
  | _ => false

/-- The kind of that name, in any case. -/
def parse? (s : String) : Option ItemKind := all.find? fun k => k.name == Text.fold s

/-- A kind written as its name. -/
def toValue (k : ItemKind) : Value := .text k.name

/-- Reads a kind from its name. -/
def decode (d : Dialect) : Decoder ItemKind := Decode.named d all name

end ItemKind

end MediaRefresh
