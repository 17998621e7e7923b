/-!
# Text: cutting at characters, searching and substituting

The four ways in which addresses and type names are taken apart: the part before
the first separator, the part after the last one, occurrence of a phrase, and
replacing every occurrence of a phrase from the left.  Each is a function on
lists of characters, with a wrapper for texts.
-/

set_option autoImplicit false

namespace MediaRefresh.Text

/-- The part before the first character that `stops`, or all of it. -/
def before (stops : Char → Bool) (s : String) : String :=
  String.ofList (s.toList.takeWhile fun c => !stops c)

/-- The characters after the last `mark`, or `none` without one. -/
def afterLastChars (mark : Char) (cs : List Char) : Option (List Char) :=
  if mark ∈ cs then some ((cs.reverse.takeWhile fun c => c != mark).reverse) else none

/-- The part after the last `mark`, or `none` without one. -/
def afterLast (mark : Char) (s : String) : Option String :=
  (afterLastChars mark s.toList).map String.ofList

/-- Whether `phrase` stands somewhere in `cs`. -/
def occursChars (phrase : List Char) : List Char → Bool
  | [] => phrase.isEmpty
  | c :: r => phrase.isPrefixOf (c :: r) || occursChars phrase r

/-- Whether `phrase` stands somewhere in the text. -/
def occurs (phrase s : String) : Bool := occursChars phrase.toList s.toList

/-- Replaces from the left; `skip` counts the characters of a match still to be
passed over. -/
def substituteChars (phrase value : List Char) : Nat → List Char → List Char
  | _, [] => []
  | skip + 1, _ :: r => substituteChars phrase value skip r
  | 0, c :: r =>
    if phrase.isPrefixOf (c :: r) then
      value ++ substituteChars phrase value (phrase.length - 1) r
    else
      c :: substituteChars phrase value 0 r

/-- The text with every occurrence of the non-empty `phrase`, taken from the left
without overlaps, replaced by `value`. -/
def substitute (phrase value s : String) : String :=
  String.ofList (substituteChars phrase.toList value.toList 0 s.toList)

end MediaRefresh.Text
