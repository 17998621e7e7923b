import MediaRefresh.Item.Id
import MediaRefresh.Item.Update
import MediaRefresh.Refresh.Options

/-!
# Events: what is announced about refreshes
-/

set_option autoImplicit false

namespace MediaRefresh

open Numeric

/-- Something that happened to an item. -/
inductive RefreshEvent where
  /-- a refresh was queued -/
  | queued (item : ItemId) (priority : Priority)
  /-- a refresh started -/
  | started (item : ItemId) (name : String)
  /-- a refresh reported its progress in percent -/
  | progressed (item : ItemId) (progress : Binary64)
  /-- a refresh ended -/
  | completed (item : ItemId)
  /-- a refresh changed the item -/
  | updated (item : ItemId) (changes : List Change)
  deriving DecidableEq, Repr, Inhabited

namespace RefreshEvent

/-- The item that an event is about. -/
def item : RefreshEvent → ItemId
  | queued item _ | started item _ | progressed item _ | completed item | updated item _ => item

/-- The tag of an event in its written form. -/
def tag : RefreshEvent → String
  | queued .. => "refresh_queued"
  | started .. => "refresh_started"
  | progressed .. => "refresh_progress"
  | completed .. => "refresh_completed"
  | updated .. => "item_updated"

/-- The fields of an event behind its tag; `number` writes the progress. -/
def fields (number : Binary64 → Value) : RefreshEvent → List (String × Bool × Form)
  | queued _ priority => [Form.always "priority" (.leaf priority.toValue)]
  | started _ name => [Form.text "name" name]
  | progressed _ progress => [Form.always "progress" (.leaf (number progress))]
  | completed _ => []
  | updated _ changes => [Form.always "changes" (.leaf (.list (changes.map Change.toValue)))]

/-- The written form of an event. -/
def formWith (number : Binary64 → Value) (e : RefreshEvent) : Form :=
  .record (Form.text "type" e.tag :: Form.always "item_id" (.leaf e.item.toValue) ::
    e.fields number)

/-- The written form of an event. -/
def form (e : RefreshEvent) : Form := e.formWith .real

/-- Reads the fields of the event with the given tag. -/
def decodeTagged (tag : String) (v : Value) : Option RefreshEvent :=
  let d := Dialect.tagged
  match tag with
  | "refresh_queued" => do
    let fs ← Fields.of? d ["item_id", "priority"] v
    return .queued (← fs.required "item_id" ItemId.decode)
      (← fs.required "priority" (Priority.decode d))
  | "refresh_started" => do
    let fs ← Fields.of? d ["item_id", "name"] v
    return .started (← fs.required "item_id" ItemId.decode) (← fs.required "name" Decode.text)
  | "refresh_progress" => do
    let fs ← Fields.of? d ["item_id", "progress"] v
    return .progressed (← fs.required "item_id" ItemId.decode)
      (← fs.required "progress" Decode.double)
  | "refresh_completed" => do
    let fs ← Fields.of? d ["item_id"] v
    return .completed (← fs.required "item_id" ItemId.decode)
  | "item_updated" => do
    let fs ← Fields.of? d ["item_id", "changes"] v
    return .updated (← fs.required "item_id" ItemId.decode)
      (← fs.required "changes" (Decode.list (Change.decode d)))
  | _ => none

/-- Reads an event from a record with its tag under `type`, or from a list that
its tag opens. -/
def decode : Decoder RefreshEvent
  | .record fields =>
    match fields.lookup "type" with
    | some (.text tag) => decodeTagged tag (.record fields)
    | _ => none
  | .list (.text tag :: rest) => decodeTagged tag (.list rest)
  | _ => none

end RefreshEvent

end MediaRefresh
