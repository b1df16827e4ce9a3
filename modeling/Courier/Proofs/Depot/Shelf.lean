import Courier.Depot
import Courier.Files.Tree
import Courier.Proofs.Table

/-! # Shelves

A shelf keeps files by their paths and never fails: an operation on a file that
is there, or that is not there where it must not be, succeeds. Each request of
random bytes may be answered with any, so what holds of every shelf holds
whatever names are drawn.
-/

namespace Courier

namespace FileStore

/-! ## Names in a directory -/

theorem join_eq_append (directory name : String) :
    join directory name = join directory "" ++ name := by
  simp only [join]
  split <;> simp

theorem join_inj {directory name other : String} :
    join directory name = join directory other ↔ name = other := by
  rw [join_eq_append, join_eq_append directory other]
  simp

/-- The name of a path right below a directory. -/
def nameIn? (directory path : String) : Option String :=
  let front := (join directory "").toList
  let name := path.toList.drop front.length
  if front <+: path.toList ∧ name ≠ [] ∧ '/' ∉ name then some (String.ofList name) else none

theorem nameIn?_eq_some_iff {directory path name : String} :
    nameIn? directory path = some name ↔
      path = join directory name ∧ name ≠ "" ∧ '/' ∉ name.toList := by
  rw [join_eq_append]
  simp only [nameIn?]
  constructor
  · intro found
    split at found
    next conditions =>
      obtain ⟨⟨name', whole⟩, some, plain⟩ := conditions
      obtain rfl := Option.some.inj found
      rw [← whole, List.drop_left] at some plain ⊢
      refine ⟨?_, by simpa using some, by simpa using plain⟩
      rw [← String.toList_inj, String.toList_append, String.toList_ofList, whole]
    next => cases found
  · rintro ⟨rfl, some, plain⟩
    rw [String.toList_append, List.drop_left, if_pos, String.ofList_toList]
    exact ⟨List.prefix_append _ _, by simpa using some, plain⟩

/-- A dot comes before what follows the last dot. -/
theorem extension?_fileName {stem extension : String} (some : stem ≠ "")
    (plain : '.' ∉ extension.toList) :
    extension? (Depot.fileName stem extension) = Option.some extension := by
  have reversed : (Depot.fileName stem extension).toList.reverse =
      extension.toList.reverse ++ '.' :: stem.toList.reverse := by
    simp [Depot.fileName]
  have after : (Depot.fileName stem extension).toList.reverse.takeWhile (· ≠ '.') =
      extension.toList.reverse := by
    rw [reversed, List.takeWhile_append_of_pos, List.takeWhile_cons_of_neg (by simp),
      List.append_nil]
    intro char member
    have : char ≠ '.' := fun dot => plain (by simpa [dot] using member)
    simpa using this
  rw [extension?, splitExtension, after, reversed, if_neg]
  · simp
  · simpa using some

end FileStore

/-! ## Files that never fail -/

/-- Files by their paths, and the random bytes that are still to come. -/
structure Shelf where
  files : Table String Bytes := .empty
  /-- What each request is answered with, from the front. -/
  draws : Nat → Nat → UInt8

abbrev Shelving := StateM Shelf

namespace Shelf

/-- The shelf after so many requests of random bytes. -/
def skip (count : Nat) (s : Shelf) : Shelf :=
  { s with draws := fun request => s.draws (count + request) }

/-- The file name that a request is answered with. -/
def stem (s : Shelf) (request : Nat) : String :=
  hexText ((List.range 16).map (s.draws request))

def ask {α : Type} (question : Table String Bytes → α) : Shelving α := fun s =>
  (question s.files, s)

def change {α : Type} (step : Table String Bytes → α × Table String Bytes) : Shelving α := fun s =>
  let (answer, files) := step s.files
  (answer, { s with files })

/-- Change a file that is there. -/
def changeFile (path : String) (step : Bytes → Table String Bytes → Table String Bytes) :
    Shelving (Except DeviceFault Unit) :=
  change fun files =>
    match files.find? path with
    | some bytes => (.ok (), step bytes files)
    | none => (.error FileTree.notFound, files)

end Shelf

open Courier.Shelf

instance : FileStore Shelving where
  createDirectories _ := return .ok ()
  fileNames directory := ask fun files => .ok (files.keys.filterMap (FileStore.nameIn? directory))
  read path := ask fun files => (files.find? path).elim (.error FileTree.notFound) .ok
  write path bytes := change fun files => (.ok (), files.insert path bytes)
  createNew path := change fun files =>
    if (files.find? path).isSome then (.error FileTree.alreadyExists, files)
    else (.ok (), files.insert path [])
  fill path bytes := changeFile path fun _ files => files.insert path bytes
  isThere path := ask fun files => .ok (files.find? path).isSome
  rename path newPath := changeFile path fun bytes files =>
    (files.erase path).insert newPath bytes
  remove path := changeFile path fun _ files => files.erase path

instance : Entropy Shelving where
  draw count := fun s => ((List.range count).map (s.draws 0), s.skip 1)

namespace Shelf

theorem run_bind {α β : Type} (x : Shelving α) (f : α → Shelving β) (s : Shelf) :
    (x >>= f).run s = (f (x.run s).1).run (x.run s).2 := rfl

theorem run_pure {α : Type} (value : α) (s : Shelf) :
    (pure value : Shelving α).run s = (value, s) := rfl

theorem skip_zero (s : Shelf) : s.skip 0 = s := by simp [skip]

theorem skip_skip (s : Shelf) (count more : Nat) :
    (s.skip count).skip more = s.skip (count + more) := by
  simp [skip, Nat.add_assoc]

theorem stem_skip (s : Shelf) (count request : Nat) :
    (s.skip count).stem request = s.stem (count + request) := rfl

variable (s : Shelf) (path : String)

@[simp] theorem run_fileNames (directory : String) :
    (FileStore.fileNames directory : Shelving _).run s =
      (.ok (s.files.keys.filterMap (FileStore.nameIn? directory)), s) := rfl

@[simp] theorem run_read : (FileStore.read path : Shelving _).run s =
    ((s.files.find? path).elim (.error FileTree.notFound) .ok, s) := rfl

@[simp] theorem run_createNew : (FileStore.createNew path : Shelving _).run s =
    if (s.files.find? path).isSome then (.error FileTree.alreadyExists, s)
    else (.ok (), { s with files := s.files.insert path [] }) := by
  simp only [FileStore.createNew, change, StateT.run]
  split <;> rfl

@[simp] theorem run_isThere : (FileStore.isThere path : Shelving _).run s =
    (.ok (s.files.find? path).isSome, s) := rfl

variable {s path} {bytes : Bytes}

theorem run_changeFile (there : s.files.find? path = some bytes)
    (step : Bytes → Table String Bytes → Table String Bytes) :
    (changeFile path step).run s = (.ok (), { s with files := step bytes s.files }) := by
  simp only [changeFile, change, StateT.run, there]

theorem run_fill (there : s.files.find? path = some bytes) (content : Bytes) :
    (FileStore.fill path content : Shelving _).run s =
      (.ok (), { s with files := s.files.insert path content }) :=
  run_changeFile there _

theorem run_rename (there : s.files.find? path = some bytes) (newPath : String) :
    (FileStore.rename path newPath : Shelving _).run s =
      (.ok (), { s with files := (s.files.erase path).insert newPath bytes }) :=
  run_changeFile there _

theorem run_remove (there : s.files.find? path = some bytes) :
    (FileStore.remove path : Shelving _).run s =
      (.ok (), { s with files := s.files.erase path }) :=
  run_changeFile there _

theorem run_remove_of_missing (missing : s.files.find? path = none) :
    (FileStore.remove path : Shelving _).run s = (.error FileTree.notFound, s) := by
  simp only [FileStore.remove, changeFile, change, StateT.run, missing]

end Shelf

namespace Depot

/-! ## Names of connections -/

/-- A stem that can be drawn. -/
def IsStem (stem : String) : Prop :=
  ∃ bytes : Bytes, bytes.length = 16 ∧ stem = hexText bytes

/-- The path of a finished connection in a directory. -/
def IsConnection (directory path : String) : Prop :=
  ∃ name, FileStore.nameIn? directory path = some name ∧
    FileStore.extension? name = some finishedExtension

theorem isStem_stem (s : Shelf) (request : Nat) : IsStem (s.stem request) :=
  ⟨_, by simp, rfl⟩

theorem IsStem.ne_empty {stem : String} (drawn : IsStem stem) : stem ≠ "" := by
  obtain ⟨bytes, length, rfl⟩ := drawn
  cases bytes with
  | nil => cases length
  | cons byte bytes => simp [hexText]

theorem hexDigit_ne_slash {n : Nat} (range : n < 16) : hexDigit n ≠ '/' := by
  revert n
  decide

theorem IsStem.plain {stem : String} (drawn : IsStem stem) : '/' ∉ stem.toList := by
  obtain ⟨bytes, -, rfl⟩ := drawn
  rw [hexText, String.toList_ofList]
  intro member
  obtain ⟨byte, -, digit⟩ := List.mem_flatMap.mp member
  have range : byte.toNat < 256 := byte.toNat_lt
  rcases List.mem_cons.mp digit with high | low
  · exact hexDigit_ne_slash (by omega) high.symm
  · exact hexDigit_ne_slash (by omega) (List.mem_singleton.mp low).symm

theorem IsStem.nameIn? {stem extension : String} (drawn : IsStem stem)
    (plain : '/' ∉ extension.toList) (directory : String) :
    FileStore.nameIn? directory (FileStore.join directory (fileName stem extension)) =
      some (fileName stem extension) := by
  refine FileStore.nameIn?_eq_some_iff.mpr ⟨rfl, by simp [fileName, drawn.ne_empty], ?_⟩
  simp [fileName, drawn.plain, plain]

/-- A finished file is a connection. -/
theorem IsStem.isConnection {stem : String} (drawn : IsStem stem) (directory : String) :
    IsConnection directory (FileStore.join directory (fileName stem finishedExtension)) :=
  ⟨_, drawn.nameIn? (by decide) directory,
    FileStore.extension?_fileName drawn.ne_empty (by decide)⟩

/-- A partial file is not a connection. -/
theorem IsStem.not_isConnection {stem : String} (drawn : IsStem stem) (directory : String) :
    ¬ IsConnection directory (FileStore.join directory (fileName stem partialExtension)) := by
  rintro ⟨name, named, finished⟩
  rw [drawn.nameIn? (by decide) directory] at named
  obtain rfl := Option.some.inj named
  rw [FileStore.extension?_fileName drawn.ne_empty (by decide)] at finished
  exact absurd (Option.some.inj finished) (by decide)

end Depot

end Courier
