import Mmreg.Text

/-!
A snapshot of the file system, and paths.

A path is its text. A file that cannot be read is absent; names and texts are UTF-8.
-/

namespace Mmreg

structure Fs where
  /-- the names in a directory -/
  readDir : String → Option (List String)
  /-- `fs::read_to_string` -/
  readToString : String → Option (List Char)
  /-- `fs::read` -/
  read : String → Option (List UInt8)
  pathExists : String → Bool
  canonicalize : String → Option String

namespace Fs

/-- `Path::join`. -/
def join (dir name : String) : String := dir ++ "/" ++ name

/-- The names a path is made of. -/
def components (path : String) : List (List Char) :=
  (path.toList.splitOn '/').filter fun c => !c.isEmpty && c != ['.']

/-- `Path::file_name`. -/
def fileName (path : String) : Option String :=
  match (components path).getLast? with
  | none => none
  | some c => if c = ['.', '.'] then none else some (String.ofList c)

/-- `Path::parent` of an absolute path. -/
def parent (path : String) : Option String :=
  match path.toList.reverse.dropWhile (· ≠ '/') with
  | [] => none
  | ['/'] => if path = "/" then none else some "/"
  | _ :: rest => some (String.ofList rest.reverse)

end Fs

end Mmreg
