import TokenNet.Path

/-!
# File trees

A file tree holds texts at places below its top.  A place is a list of names; every file and every
folder but the top lies in a folder.  A path is followed step by step, and each step has to start
from a folder, so a path through a file or through a missing folder leads nowhere even if later
steps lead up again.
-/

namespace TokenNet

/-- What is at a place of a file tree. -/
inductive FileEntry where
  | folder
  | file (text : String)
deriving DecidableEq, Repr, Inhabited

/-- The places of a file tree, the top left out. -/
structure FileTree where
  entries : List (List String × FileEntry) := []
deriving DecidableEq, Repr, Inhabited

namespace FileTree

/-! ## Places -/

/-- What is at a place. -/
def entry? (tree : FileTree) (place : List String) : Option FileEntry :=
  if place = [] then some .folder else tree.entries.lookup place

/-! ## Growth -/

/-- Puts an entry at a place. -/
def put (tree : FileTree) (place : List String) (entry : FileEntry) : FileTree :=
  ⟨(place, entry) :: tree.entries⟩

/-- Makes sure that there is something at a place. -/
def ensure (tree : FileTree) (place : List String) : FileTree :=
  if (tree.entry? place).isSome then tree else tree.put place .folder

/-- The place to which steps lead from another place if missing folders are made on the way, and the
tree with these folders. -/
def pave (tree : FileTree) (here : List String) : List String → FileTree × List String
  | [] => (tree, here)
  | step :: rest =>
    if Path.isNeutral step then tree.pave here rest
    else if step = ".." then tree.pave here.dropLast rest
    else (tree.ensure (here ++ [step])).pave (here ++ [step]) rest

/-- Makes the folders through which a path leads. -/
def addFolder (tree : FileTree) (path : Path) : FileTree :=
  (tree.pave [] path.steps).1

/-- Writes a file whose name is the last step of a path, in folders that are made if they are
missing. -/
def addFile (tree : FileTree) (path : Path) (text : String) : FileTree :=
  let (paved, here) := tree.pave [] path.steps.dropLast
  paved.put (here ++ path.steps.getLast?.toList) (.file text)

/-! ## Following paths -/

/-- The place to which steps lead from another place. -/
def follow? (tree : FileTree) (here : List String) : List String → Option (List String)
  | [] => some here
  | step :: rest =>
    -- Only a folder can be gone through
    if tree.entry? here = some .folder then
      if Path.isNeutral step then tree.follow? here rest
      else if step = ".." then tree.follow? here.dropLast rest
      else
        let next := here ++ [step]
        if (tree.entry? next).isSome then tree.follow? next rest else none
    else none

/-- The text of the file to which a path leads. -/
def read? (tree : FileTree) (path : Path) : Option String :=
  match (tree.follow? [] path.steps).bind tree.entry? with
  | some (.file text) => some text
  | _ => none

/-- The path of the folder to which a path leads, without detours. -/
def folder? (tree : FileTree) (path : Path) : Option Path :=
  match tree.follow? [] path.steps with
  | some here => if tree.entry? here = some .folder then some ⟨here⟩ else none
  | none => none

end FileTree

end TokenNet
