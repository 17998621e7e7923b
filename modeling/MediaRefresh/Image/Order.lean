import MediaRefresh.Image.Remote
import MediaRefresh.Text.Folding

/-!
# Images: the order of candidates

Candidates in the preferred language come first, then unlabelled ones, then the
rest; within a group the higher rating comes first, then the higher number of
votes.  A missing or non-finite rating counts as zero.  Equal candidates keep the
order in which they were offered.
-/

set_option autoImplicit false

namespace MediaRefresh

open Numeric

namespace RemoteImage

/-- The group of a candidate by its language. -/
def languageRank (preferred : String) (i : RemoteImage) : Nat :=
  match i.language with
  | some l => if Text.same l preferred then 0 else 2
  | none => 1

/-- The rating by which a candidate is ordered. -/
def rating (i : RemoteImage) : Binary64 := (i.communityRating.filter Binary.isFinite).getD .zero

/-- Whether `a` may stand before `b`. -/
def precedes (preferred : String) (a b : RemoteImage) : Bool :=
  let la := a.languageRank preferred
  let lb := b.languageRank preferred
  let ra := a.rating.rank
  let rb := b.rating.rank
  la < lb || (la == lb && (rb < ra || (ra == rb && b.votes.getD 0 ≤ a.votes.getD 0)))

/-- The candidates in order. -/
def ordered (preferred : String) (is : List RemoteImage) : List RemoteImage :=
  is.mergeSort (precedes preferred)

/-- The best candidate of a type. -/
def best? (preferred : String) (t : ImageType) (is : List RemoteImage) : Option RemoteImage :=
  (ordered preferred (is.filter (·.imageType == t))).head?

end RemoteImage

end MediaRefresh
