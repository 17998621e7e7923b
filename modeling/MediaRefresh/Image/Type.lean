import MediaRefresh.Value.Decode

/-!
# Images: what an image depicts, and an image recorded on an item
-/

set_option autoImplicit false

namespace MediaRefresh

/-- What an image depicts. -/
inductive ImageType where
  /-- the poster -/
  | primary
  | art
  | backdrop
  | banner
  | logo
  | thumb
  | disc
  deriving DecidableEq, Repr, Inhabited

namespace ImageType

/-- Every type, in declaration order. -/
def all : List ImageType := [primary, art, backdrop, banner, logo, thumb, disc]

theorem mem_all (t : ImageType) : t ∈ all := by cases t <;> decide

/-- The name of an image type. -/
def name : ImageType → String
  | primary => "primary"
  | art => "art"
  | backdrop => "backdrop"
  | banner => "banner"
  | logo => "logo"
  | thumb => "thumb"
  | disc => "disc"

/-- An image type written as its name. -/
def toValue (t : ImageType) : Value := .text t.name

/-- Reads an image type from its name. -/
def decode (d : Dialect) : Decoder ImageType := Decode.named d all name

end ImageType

/-- An image recorded on an item. -/
structure ItemImage where
  /-- a local path or a remote address -/
  path : String
  imageType : ImageType
  /-- in pixels, if known -/
  width : Option Nat
  /-- in pixels, if known -/
  height : Option Nat
  deriving DecidableEq, Repr, Inhabited

end MediaRefresh
