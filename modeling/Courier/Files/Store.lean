import Courier.Bytes
import Courier.Connection.Fault

/-! # File stores

The operations on files that the program needs, over any monad: the files of
the platform, or a tree in memory. Files are named by paths with slashes.
-/

namespace Courier

class FileStore (m : Type → Type) where
  createDirectories : (path : String) → m (Except DeviceFault Unit)
  /-- Names of the plain files in a directory. -/
  fileNames : (path : String) → m (Except DeviceFault (List String))
  read : (path : String) → m (Except DeviceFault Bytes)
  write : (path : String) → Bytes → m (Except DeviceFault Unit)
  /-- Create an empty file where there is nothing. -/
  createNew : (path : String) → m (Except DeviceFault Unit)
  /-- Fill a file that exists. -/
  fill : (path : String) → Bytes → m (Except DeviceFault Unit)
  isThere : (path : String) → m (Except DeviceFault Bool)
  /-- Rename a file, in place of the file that has the new name. -/
  rename : (path newPath : String) → m (Except DeviceFault Unit)
  remove : (path : String) → m (Except DeviceFault Unit)

namespace FileStore

/-- The path of a file in a directory. A slash comes between them, unless the path of the directory
    ends in one or is empty. -/
def join (directory name : String) : String :=
  match directory.toList.getLast? with
  | none | some '/' => directory ++ name
  | some _ => directory ++ "/" ++ name

/-- A name before its last dot and what follows it. A dot at the front is part of the name. -/
def splitExtension (name : String) : String × Option String :=
  let reversed := name.toList.reverse
  let after := reversed.takeWhile (· ≠ '.')
  let before := (reversed.drop (after.length + 1)).reverse
  if before.isEmpty then (name, none)
  else (String.ofList before, some (String.ofList after.reverse))

/-- What follows the last dot of a name. -/
def extension? (name : String) : Option String :=
  (splitExtension name).2

end FileStore

end Courier
