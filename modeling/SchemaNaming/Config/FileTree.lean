import SchemaNaming.Config.Path

/-!
# File trees

Where a configuration is looked up: directories that hold named files and directories. Looking up
follows a path component by component. It comes to nothing where a name is missing or a file would
have to hold something; a name or a whole path of too many bytes is refused as such, but only once
the lookup gets there. Files may be locked and directories closed to whoever looks: a locked file is
there but cannot be read, and nothing can be looked up in a closed directory.

* `FileTree.walk` — what a list of components leads to;
* `FileTree.find` — what a path names.
-/

namespace SchemaNaming.Config

/-- A file, or a directory with what it holds. -/
inductive FileTree where
  | file (bytes : List UInt8)
  | directory (entries : List (String × FileTree))
  /-- A file that may not be read. -/
  | locked
  /-- A directory that may not be looked through. -/
  | closed

/-- What a lookup comes to. -/
inductive Found where
  | missing
  /-- The path, or a component that was looked up, is too long. -/
  | tooLong
  /-- A directory on the way is closed. -/
  | denied
  | directory
  | locked
  | file (bytes : List UInt8)
  deriving DecidableEq, Repr

namespace FileTree

/-- The bytes that a name may have. -/
def nameLimit : Nat := 255

/-- The bytes that a path may have. -/
def pathLimit : Nat := 4095

/-- What there is at a place. -/
def found : FileTree → Found
  | file bytes => .file bytes
  | locked => .locked
  | directory _ | closed => .directory

/-- Follows the components from `here`, which lies below the places of `above`, the nearest
first. The root is above itself. -/
def walk (above : List FileTree) (here : FileTree) : List String → Found
  | [] => here.found
  | name :: names =>
    match here with
    | .file _ | .locked => .missing
    | .closed => .denied
    | .directory entries =>
      if name = ".." then
        match above with
        | [] => walk [] here names
        | parent :: above => walk above parent names
      else if nameLimit < name.utf8ByteSize then .tooLong
      else
        match entries.lookup name with
        | none => .missing
        | some next => walk (here :: above) next names

/-- What the path names in a tree. Names from the root lead to the working directory. A path with
a NUL character names nothing. -/
def find (tree : FileTree) (workingDirectory : List String) (p : Path) : Found :=
  if p.components.any (·.toList.contains '\x00') then .missing
  else if pathLimit < p.toString.utf8ByteSize then .tooLong
  else walk [] tree ((if p.root = .relative then workingDirectory else []) ++ p.components)

end FileTree

end SchemaNaming.Config
