import MediaRefresh.Settings.Config
import MediaRefresh.Toml.Document

/-!
# Settings: reading the configuration from files

A file is its bytes, or is absent.  An explicitly named file must be readable;
otherwise the first file that exists at the usual places counts, and without any
the server runs on the standard configuration.
-/

set_option autoImplicit false

namespace MediaRefresh

/-- Why a configuration could not be loaded. -/
inductive LoadFault where
  /-- the file is absent or is not UTF-8 -/
  | unreadable
  /-- the text is not TOML, or a setting has the wrong type -/
  | malformed
  /-- the settings do not pass the checks -/
  | rejected (fault : ConfigFault)
  deriving DecidableEq, Repr

namespace Config

/-- The configuration that a text says. -/
def ofText (s : String) : Except LoadFault Config :=
  match (Toml.read? s).bind (decode .settings) with
  | none => .error .malformed
  | some c =>
    match c.fault? with
    | some f => .error (.rejected f)
    | none => .ok c

/-- The configuration in a file. -/
def load (file : Option ByteArray) : Except LoadFault Config :=
  match file.bind String.fromUTF8? with
  | none => .error .unreadable
  | some s => ofText s

/-- The configuration in the `custom` file when one is named, else in the first
file at the usual `places`, else the standard one. -/
def loadOrStandard (custom : Option (Option ByteArray)) (places : List (Option ByteArray)) :
    Except LoadFault Config :=
  match custom with
  | some file => load file
  | none =>
    match places.filterMap id with
    | [] => .ok standard
    | file :: _ => load (some file)

end Config

end MediaRefresh
