import BudgetedRun.Config.Text
import BudgetedRun.File.Host

/-!
# Configuration files

Loading settings from a file and saving them to one. Where there is no file the standard settings
hold. A file is saved by way of a temporary file, which then takes its place.
-/

namespace BudgetedRun

open FileSystem

/-- Why settings cannot be loaded. -/
inductive ConfigLoadError where
  | read (path : String) (e : FileError)
  | unreadable (path : String)
  | invalid (path : String) (e : ConfigError)
deriving DecidableEq

def ConfigLoadError.message : ConfigLoadError → String
  | read path e => s!"read {path}: {e.message}"
  | unreadable path => s!"parse {path}"
  | invalid path e => s!"validate {path}: {e.message}"

/-- Why settings cannot be saved. -/
inductive ConfigSaveError where
  | invalid (e : ConfigError)
  | noParent (path : String)
  | createDirectory (path : String) (e : FileError)
  | writeTemporary (path : String) (e : FileError)
  | replace (path : String) (e : FileError)
deriving DecidableEq

def ConfigSaveError.message : ConfigSaveError → String
  | invalid e => e.message
  | noParent path => s!"config path missing parent {path}"
  | createDirectory path e => s!"create directory {path}: {e.message}"
  | writeTemporary path e => s!"write temp config {path}: {e.message}"
  | replace path e => s!"replace config {path}: {e.message}"

namespace Config

variable {m : Type → Type} [Monad m] [FileSystem m]

def ofText (path text : String) : Except ConfigLoadError Config :=
  match parse? text with
  | none => .error (.unreadable path)
  | some c =>
    match c.validate with
    | .ok () => .ok c
    | .error e => .error (.invalid path e)

/-- The settings in a file, or the standard ones if there is no file. -/
def load (path : String) : m (Except ConfigLoadError Config) := do
  if ← isPresent path then
    match ← readText path with
    | .error e => return .error (.read path e)
    | .ok text => return ofText path text
  else return .ok standard

def save (path : String) (c : Config) : m (Except ConfigSaveError Unit) := do
  match c.validate with
  | .error e => return .error (.invalid e)
  | .ok () =>
    match Path.parent? path with
    | none => return .error (.noParent path)
    | some parent =>
      match ← makeDirectories parent with
      | .error e => return .error (.createDirectory parent e)
      | .ok () =>
        let temporary := Path.withExtension path "toml.tmp"
        match ← writeText temporary c.render with
        | .error e => return .error (.writeTemporary temporary e)
        | .ok () =>
          match ← rename temporary path with
          | .error e => return .error (.replace path e)
          | .ok () => return .ok ()

end Config

end BudgetedRun
