import TokenNet.Text.Field

/-!
# Paths

A path leads from the top of a file tree to a place in it.  Its steps are kept as they are written:
an empty step and a dot lead nowhere and two dots lead up, but only a file tree can tell where a
path arrives.  Going from a path to the folder around it is a matter of its text alone.
-/

namespace TokenNet

/-- A path from the top of a file tree. -/
structure Path where
  steps : List String
deriving DecidableEq, Repr, Inhabited

namespace Path

/-! ## Steps -/

/-- The path that leads nowhere. -/
def top : Path := ⟨[]⟩

/-- Whether a step leads nowhere. -/
def isNeutral (step : String) : Bool :=
  step == "" || step == "."

/-! ## Texts -/

/-- A path with further steps.  An empty last step is a slash at the end of the text, which the
first of the further steps follows. -/
def extend (path : Path) (steps : List String) : Path :=
  match path.steps.getLast? with
  | some "" => ⟨path.steps.dropLast ++ steps⟩
  | _ => ⟨path.steps ++ steps⟩

/-- The path that a text names.  A text that begins with a slash names a path from the top, every
other one a path from the given folder. -/
def ofText (folder : Path) (text : String) : Path :=
  match Text.split '/' text with
  | "" :: step :: steps => ⟨step :: steps⟩
  | steps => folder.extend steps

/-- The text of a path. -/
def text (path : Path) : String :=
  "/" ++ "/".intercalate path.steps

/-- Whether a text is short enough to be a path: with the zero byte behind it, it fits into a page of
4096 bytes.  A longer text names nothing, even if its steps lead somewhere. -/
def isNameable (text : String) : Bool :=
  text.utf8ByteSize < 4096

/-- How a path goes on from a folder that it leads through, without the steps that lead nowhere
before the first one that counts. -/
def relativeTo? (folder path : Path) : Option String :=
  if path.steps.take folder.steps.length = folder.steps then
    some ("/".intercalate ((path.steps.drop folder.steps.length).dropWhile isNeutral))
  else none

/-! ## Folders around a path -/

/-- The folders around a path whose steps are listed from the last to the first: for each step that
counts, the steps before it. -/
def climb : List String → List (List String)
  | [] => []
  | step :: before =>
    if isNeutral step then climb before
    else (before.dropWhile isNeutral).reverse :: climb before

/-- A path and the folders around it, the nearest first. -/
def ancestors (path : Path) : List Path :=
  path :: (climb path.steps.reverse).map Path.mk

end Path

end TokenNet
