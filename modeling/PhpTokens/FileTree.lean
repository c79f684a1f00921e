import PhpTokens.SourceText

/-!
Directories and files, and how a path leads to one of them. A path is a row of names between
slashes. Every name but the last one must lead to a directory, and the last one as well if a
slash follows it. The names `.` and `..` stand for the directory itself and the one around it. A
path begins at the top of the file system if a slash comes first, and else in the working directory.
-/
namespace PhpTokens

/-- A file with its bytes, or a directory with what it holds, by name. -/
inductive FileTree where
  | file (content : ByteArray)
  | directory (entries : List (SystemText × FileTree))

/-- A way to the bytes of files. -/
abbrev Files := SystemText → Except ReadError ByteArray

namespace FileTree

/-- The bytes a name may have, and the bytes a path may have. -/
def maxName : Nat := 255
def maxPath : Nat := 4095

/-- The byte between names. -/
def slash : UInt8 := 0x2F

/-- The names of a path, of which there is one more than there are slashes. -/
def namesOf (path : SystemText) : List SystemText := (path.bytes.splitOn slash).map .mk

/-- Follows the names of a path from `here`, whose enclosing directories are `around`, the
innermost first. The directory around the top is the top itself. -/
def follow (around : List FileTree) (here : FileTree) :
    List SystemText → Except ReadError FileTree
  | [] => .ok here
  | name :: names =>
    match here with
    | .file _ => .error .notDirectory
    | .directory entries =>
      if name = ⟨[]⟩ ∨ name = .ofString "." then follow around here names
      else if name = .ofString ".." then follow around.tail (around.headD here) names
      else if maxName < name.size then .error .nameTooLong
      else
        match entries.lookup name with
        | none => .error .notFound
        | some found => follow (here :: around) found names

/-- A file found below a directory: the path it is reached by, and the names on the way from that
directory. -/
structure Found where
  path : SystemText
  names : List SystemText
  deriving DecidableEq, Repr

/-- The path of an entry of the directory at `path`. -/
def entryPath (path name : SystemText) : SystemText :=
  if path.bytes.getLast? = some slash then path ++ name else path ++ ⟨[slash]⟩ ++ name

mutual

/-- All files at and below the place that is reached by `path` and by `names`, and in between the
paths of directories that are too long to be opened. -/
def walk (path : SystemText) (names : List SystemText) :
    FileTree → List (Except SystemText Found)
  | .file _ => [.ok ⟨path, names⟩]
  | .directory entries =>
    if maxPath < path.size then [.error path] else walkEntries path names entries

def walkEntries (path : SystemText) (names : List SystemText) :
    List (SystemText × FileTree) → List (Except SystemText Found)
  | [] => []
  | (name, found) :: entries =>
    walk (entryPath path name) (names ++ [name]) found ++ walkEntries path names entries

end

end FileTree

/-- All files there are, and the names that lead from the top to the working directory. -/
structure FileSystem where
  root : FileTree
  working : List SystemText := []

namespace FileSystem
open FileTree

/-- The names that lead from the top to what a path names. -/
def namesFromTop (fs : FileSystem) (path : SystemText) : List SystemText :=
  if path.bytes.head? = some slash then namesOf path else fs.working ++ namesOf path

/-- What a path leads to. -/
def find (fs : FileSystem) (path : SystemText) : Except ReadError FileTree :=
  if 0 ∈ path.bytes then .error .nulInName
  else if path.bytes = [] then .error .notFound
  else if maxPath < path.size then .error .nameTooLong
  else follow [] fs.root (fs.namesFromTop path)

/-- The bytes of the file at a path. -/
def read (fs : FileSystem) (path : SystemText) : Except ReadError ByteArray := do
  match ← fs.find path with
  | .file content => return content
  | .directory _ => throw .isDirectory

end FileSystem
end PhpTokens
