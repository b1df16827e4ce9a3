/-! # Paths

A path is a walk through directories: where it starts, and a step for each
piece between slashes. Only a tree can tell where a path leads, because every
step has to start from a directory that is there.
-/

namespace Courier

inductive FilePath.Step where
  /-- Go nowhere: `.`. -/
  | stay
  /-- Go back: `..`. -/
  | up
  | down (name : String)
  deriving DecidableEq, Repr

structure FilePath where
  /-- The walk starts at the root, not at the working directory. -/
  isAbsolute : Bool
  steps : List FilePath.Step
  /-- The path ends in a slash, so it names no plain file. -/
  endsInSlash : Bool
  /-- Number of bytes of its text. -/
  size : Nat
  deriving DecidableEq, Repr

namespace FilePath

/-- Longest name in a directory, in bytes. -/
def maxNameSize : Nat := 255

/-- Longest path, in bytes. -/
def maxSize : Nat := 4095

/-- The step of a piece between slashes; an empty piece is none. -/
def Step.ofPiece? : String → Option Step
  | "" => none
  | "." => some .stay
  | ".." => some .up
  | name => some (.down name)

/-- Where a step leads from a directory. The root has nothing above it. -/
def Step.next (place : List String) : Step → List String
  | stay => place
  | up => place.dropLast
  | down name => place ++ [name]

def Step.isTooLong : Step → Bool
  | down name => name.utf8ByteSize > maxNameSize
  | _ => false

def ofString (text : String) : FilePath :=
  let pieces := text.splitOn "/"
  { isAbsolute := text.toList.head? = some '/'
    steps := pieces.filterMap Step.ofPiece?
    endsInSlash := pieces.getLast? = some ""
    size := text.utf8ByteSize }

def isTooLong (path : FilePath) : Bool :=
  path.size > maxSize

/-- Names of the directories from the root to the working directory. -/
def workingDirectory : List String := ["tmp", "work"]

/-- The directory where the walk starts. -/
def start (path : FilePath) : List String :=
  if path.isAbsolute then [] else workingDirectory

/-- The path of something right below a path. -/
def child (path : FilePath) (name : String) : FilePath :=
  let slash := if path.endsInSlash then 0 else 1
  { path with
    steps := path.steps ++ [.down name]
    endsInSlash := false
    size := path.size + slash + name.utf8ByteSize }

/-- The steps that go somewhere. -/
def moves (path : FilePath) : List Step :=
  path.steps.filter (· ≠ .stay)

/-- The walks that end ahead of the last move, the shortest first. -/
def walksAbove (path : FilePath) : List (List Step) :=
  (List.range path.moves.length).map path.moves.take

end FilePath

end Courier
