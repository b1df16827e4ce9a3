import Courier.Files.Path
import Courier.Files.Store
import Courier.Table

/-! # Files in memory

A tree of directories and files, as a table of places. A place is the list of
names from the root to it; the root is a directory and is not in the table. A
path leads to a place if each of its steps starts from a directory. Every
operation first walks its path, then looks at what is there. What a system
always has is in every tree from the beginning: the usual directories, some
devices, and the link by which a process finds its working directory.
-/

namespace Courier

inductive FileTree.Node where
  | file (content : Bytes)
  | directory
  /-- A file that stays empty, whatever is written to it. -/
  | void
  /-- A file that has no room for a byte and no end. -/
  | full
  /-- Stands for another place. -/
  | link (target : List String)
  deriving DecidableEq, Repr

/-- The usual directories at the root. -/
def FileTree.rootNames : List String :=
  ["bin", "boot", "dev", "etc", "home", "lib", "media", "mnt", "opt", "proc", "root", "run",
    "sbin", "srv", "sys", "tmp", "usr", "var"]

/-- What is in every tree from the beginning. Standard input is empty. -/
def FileTree.ground : Table (List String) FileTree.Node :=
  .ofList (FileTree.rootNames.map (fun name => ([name], .directory)) ++
    [(["dev", "null"], .void), (["dev", "full"], .full), (["dev", "stdin"], .link ["dev", "null"]),
      (["proc", "self"], .directory), (["proc", "self", "cwd"], .link FilePath.workingDirectory),
      (FilePath.workingDirectory, .directory)])

structure FileTree where
  nodes : Table (List String) FileTree.Node := FileTree.ground

namespace FileTree

def notFound : DeviceFault := ⟨.notFound, "No such file or directory"⟩

def notADirectory : DeviceFault := ⟨.notADirectory, "Not a directory"⟩

def isADirectory : DeviceFault := ⟨.other, "Is a directory"⟩

def alreadyExists : DeviceFault := ⟨.alreadyExists, "File exists"⟩

def nameTooLong : DeviceFault := ⟨.other, "File name too long"⟩

def notPermitted : DeviceFault := ⟨.other, "Operation not permitted"⟩

def noSpace : DeviceFault := ⟨.other, "No space left on device"⟩

def node? (tree : FileTree) (place : List String) : Option Node :=
  if place = [] then some .directory else tree.nodes.find? place

/-- The place itself, or the one that it stands for. -/
def behind (tree : FileTree) (place : List String) : List String :=
  match tree.node? place with
  | some (.link target) => target
  | _ => place

/-- Where steps lead from a place. Nothing has to be where the last one leads. -/
def follow (tree : FileTree) :
    (place : List String) → List FilePath.Step → Except DeviceFault (List String)
  | place, [] => .ok place
  | place, step :: rest =>
      match tree.node? place with
      | some .directory =>
          if step.isTooLong then .error nameTooLong
          else tree.follow (tree.behind (step.next place)) rest
      | some _ => .error notADirectory
      | none => .error notFound

/-- The place that a path leads to, and what is there. -/
def locate (path : FilePath) (tree : FileTree) :
    Except DeviceFault (List String × Option Node) := do
  if path.isTooLong then
    throw nameTooLong
  let place ← tree.follow path.start path.steps
  match tree.node? place with
  | none => return (place, none)
  | some .directory => return (place, some .directory)
  | some node => if path.endsInSlash then throw notADirectory else return (place, some node)

/-- Whether nothing can be put at a place: what the system shows of itself cannot be changed. -/
def isLocked (place : List String) : Bool :=
  place.head? = some "proc" || place.head? = some "sys"

def put (place : List String) (node : Node) (tree : FileTree) :
    Except DeviceFault Unit × FileTree :=
  if isLocked place then (.error notPermitted, tree)
  else (.ok (), ⟨tree.nodes.insert place node⟩)

/-- Create a directory where steps lead, unless there is one. -/
def createDirectory (start : List String) (steps : List FilePath.Step) (tree : FileTree) :
    Except DeviceFault Unit × FileTree :=
  match tree.follow start steps with
  | .error fault => (.error fault, tree)
  | .ok place =>
      match tree.node? place with
      | some .directory => (.ok (), tree)
      | some _ => (.error alreadyExists, tree)
      | none => tree.put place .directory

/-- Create directories one after the other, up to a fault. -/
def createEach (start : List String) :
    List (List FilePath.Step) → FileTree → Except DeviceFault Unit × FileTree
  | [], tree => (.ok (), tree)
  | steps :: rest, tree =>
      match tree.createDirectory start steps with
      | (.ok (), tree) => createEach start rest tree
      | (.error fault, tree) => (.error fault, tree)

/-- Create the directory of a path, and first those on its way. Going nowhere at the end of the path
    takes a directory that is there. -/
def createDirectories (path : FilePath) (tree : FileTree) : Except DeviceFault Unit × FileTree :=
  if path.isTooLong then (.error nameTooLong, tree)
  else tree.createEach path.start (path.walksAbove ++ [path.steps])

/-- The last names of what is right below a place, with what they name. -/
def children (tree : FileTree) (place : List String) : List (String × Node) :=
  tree.nodes.entries.filterMap fun (below, node) =>
    if below.dropLast = place then below.getLast?.map fun name => (name, node) else none

/-- What is right below a path, if it names a directory. -/
def children? (path : FilePath) (tree : FileTree) :
    Except DeviceFault (List (String × Node)) := do
  match ← tree.locate path with
  | (place, some .directory) => return tree.children place
  | (_, some _) => throw notADirectory
  | (_, none) => throw notFound

/-- Names of the files in a directory. A file whose own path leads nowhere is not seen. -/
def fileNames (path : FilePath) (tree : FileTree) : Except DeviceFault (List String) :=
  (tree.children? path).map fun children =>
    (children.map (·.1)).filter fun name =>
      match tree.locate (path.child name) with
      | .ok (_, some (.file _)) => true
      | _ => false

def read (path : FilePath) (tree : FileTree) : Except DeviceFault Bytes := do
  match ← tree.locate path with
  | (_, some (.file content)) => return content
  | (_, some .void) => return []
  | (_, some .full) => throw noSpace
  | (_, some _) => throw isADirectory
  | (_, none) => throw notFound

/-- Put a file at a path where `accepts` likes what is there. -/
def putFile (path : FilePath) (content : Bytes)
    (accepts : Option Node → Except DeviceFault Unit) (tree : FileTree) :
    Except DeviceFault Unit × FileTree :=
  match tree.locate path with
  | .error fault => (.error fault, tree)
  | .ok (place, found) =>
      match accepts found with
      | .error fault => (.error fault, tree)
      | .ok () =>
          if path.endsInSlash then (.error isADirectory, tree)
          else
            match found with
            | some .void => (.ok (), tree)
            | some .full => (if content.isEmpty then .ok () else .error noSpace, tree)
            | _ => tree.put place (.file content)

def write (path : FilePath) (content : Bytes) : FileTree → Except DeviceFault Unit × FileTree :=
  putFile path content fun
    | some .directory => .error isADirectory
    | _ => .ok ()

def createNew (path : FilePath) : FileTree → Except DeviceFault Unit × FileTree :=
  putFile path [] fun
    | none => .ok ()
    | some _ => .error alreadyExists

def fill (path : FilePath) (content : Bytes) : FileTree → Except DeviceFault Unit × FileTree :=
  putFile path content fun
    | some .directory => .error isADirectory
    | some _ => .ok ()
    | none => .error notFound

def isThere (path : FilePath) (tree : FileTree) : Except DeviceFault Bool :=
  match tree.locate path with
  | .ok (_, found) => .ok found.isSome
  | .error fault => if fault.kind = .notFound then .ok false else .error fault

def remove (path : FilePath) (tree : FileTree) : Except DeviceFault Unit × FileTree :=
  match tree.locate path with
  | .error fault => (.error fault, tree)
  | .ok (_, none) => (.error notFound, tree)
  | .ok (_, some .directory) => (.error isADirectory, tree)
  | .ok (place, some _) => (.ok (), ⟨tree.nodes.erase place⟩)

def rename (path newPath : FilePath) (tree : FileTree) : Except DeviceFault Unit × FileTree :=
  match tree.locate path, tree.locate newPath with
  | .error fault, _ | _, .error fault => (.error fault, tree)
  | .ok (_, none), _ => (.error notFound, tree)
  | .ok (_, some .directory), _ | _, .ok (_, some .directory) => (.error isADirectory, tree)
  | .ok (place, some node), .ok (newPlace, _) =>
      if newPath.endsInSlash then (.error notADirectory, tree)
      else (.ok (), ⟨(tree.nodes.erase place).insert newPlace node⟩)

/-- A tree of these files, with the directories above them. -/
def ofFiles (files : List (String × Bytes)) : FileTree :=
  files.foldl
    (fun tree (name, content) =>
      let path := FilePath.ofString name
      let (_, tree) := tree.createEach path.start path.walksAbove
      (tree.write path content).2)
    {}

/-- The tree without a place and all that is below it. -/
def wipe (path : FilePath) (tree : FileTree) : FileTree :=
  match tree.follow path.start path.steps with
  | .error _ => tree
  | .ok place =>
      tree.nodes.keys.foldl
        (fun tree below =>
          if place.isPrefixOf below then ⟨tree.nodes.erase below⟩ else tree)
        tree

end FileTree

end Courier
