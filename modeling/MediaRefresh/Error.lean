import MediaRefresh.Item.Id

/-!
# Errors

`Failure` is what a collaborator reports: a chain of texts from the outermost
context to the root cause.  `RefreshError` is what a refresh reports to its
host: a cause, a message and a status.
-/

set_option autoImplicit false

namespace MediaRefresh

/-- A failure of a collaborator, outermost context first. -/
structure Failure where
  causes : List String
  deriving DecidableEq, Repr, Inhabited

namespace Failure

/-- The failure with one cause. -/
def of (text : String) : Failure := ⟨[text]⟩

/-- The failure seen from an outer context. -/
def within (context : String) (f : Failure) : Failure := ⟨context :: f.causes⟩

/-- The whole chain on one line. -/
def text (f : Failure) : String := ": ".intercalate f.causes

end Failure

/-- Why an operation did not succeed. -/
inductive RefreshError where
  /-- the requested entity does not exist -/
  | notFound (entity id : String)
  /-- progress was reported for an item that is not being refreshed -/
  | notRunning (item : ItemId) (name : String)
  /-- no service can refresh items of a kind -/
  | noService (kind : String)
  /-- a provider failed while serving a request -/
  | provider (name message : String)
  /-- a request for an image was answered by something else -/
  | invalidImage (url contentType : String)
  /-- the operation was cancelled -/
  | cancelled
  /-- an input is not acceptable -/
  | validation (text : String)
  /-- anything else -/
  | internal (text : String)
  deriving DecidableEq, Repr, Inhabited

namespace RefreshError

/-- The message of an error. -/
def message : RefreshError → String
  | notFound entity id => entity ++ " not found: " ++ id
  | notRunning item name =>
    "cannot update refresh progress of item " ++ item.text ++ " (" ++ name ++
      "): no refresh is running"
  | noService kind => "no metadata service found for item kind " ++ kind
  | provider name message => "Provider error [" ++ name ++ "]: " ++ message
  | invalidImage url contentType => "invalid image received from " ++ url ++ ": " ++ contentType
  | cancelled => "operation cancelled"
  | validation text => "Validation error: " ++ text
  | internal text => "Internal error: " ++ text

/-- The status with which a web host answers. -/
def status : RefreshError → Nat
  | notFound .. => 404
  | invalidImage .. => 404
  | validation _ => 400
  | provider .. => 502
  | cancelled => 503
  | notRunning .. => 500
  | noService _ => 500
  | internal _ => 500

/-- Whether the error stems from cancellation. -/
def isCancelled (e : RefreshError) : Bool := e == cancelled

end RefreshError

end MediaRefresh
