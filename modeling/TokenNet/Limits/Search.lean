import TokenNet.Limits.Settings
import TokenNet.Path

/-!
# The search for settings

Settings are kept in a file of a fixed name.  Those of a folder also hold below it, so the search
for them climbs from a folder to the folders around it and takes the nearest file that is there;
without one the limits keep their defaults.

Files are read through a function that answers the text of the file at a path, if there is one.
-/

namespace TokenNet.Limits

/-- The name of a settings file. -/
def fileName : String := "Bugplus.toml"

/-- Why settings cannot be had. -/
inductive SettingsError where
  /-- There is no file that can be read. -/
  | unreadable
  | malformed
deriving DecidableEq, Repr, Inhabited

/-! ## Files -/

/-- Reads the settings in the file that a text names from a folder. -/
def ofFile {m : Type → Type} [Monad m] (read? : Path → m (Option String)) (folder : Path)
    (name : String) : m (Except SettingsError Limits) := do
  if Path.isNameable name then
    match ← read? (Path.ofText folder name) with
    | none => return .error .unreadable
    | some text => return (ofSettings? text).elim (.error .malformed) .ok
  else return .error .unreadable

/-! ## Search -/

/-- The paths at which the settings of a folder may be, the nearest first. -/
def candidates (folder : Path) : List Path :=
  (folder.ancestors.map fun path => path.extend [fileName]).filter fun path =>
    Path.isNameable path.text

/-- The first of several files that is there, and its text. -/
def firstFile {m : Type → Type} [Monad m] (read? : Path → m (Option String)) :
    List Path → m (Option (Path × String))
  | [] => return none
  | path :: rest => do
    match ← read? path with
    | some text => return some (path, text)
    | none => firstFile read? rest

/-- The settings file of a folder and its text. -/
def find {m : Type → Type} [Monad m] (read? : Path → m (Option String)) (folder : Path) :
    m (Option (Path × String)) :=
  firstFile read? (candidates folder)

/-- The limits of a folder, and the file that they come from. -/
def discover {m : Type → Type} [Monad m] (read? : Path → m (Option String)) (folder : Path) :
    m (Except SettingsError (Limits × Option Path)) := do
  match ← find read? folder with
  | none => return .ok ({}, none)
  | some (path, text) =>
    return (ofSettings? text).elim (.error .malformed) fun limits => .ok (limits, some path)

end TokenNet.Limits
