import Courier.Connection.Context
import Courier.Connection.Frame
import Courier.Files.Store
import Courier.Random.Mint

/-! # Depots

A depot is a directory where connections are left for others to pick up, one
file each: a shared folder, or a medium that is carried around. File names are
random and tell nothing. A connection has a name of its own kind until it is
complete, and a finished file never takes a name that is in use, so nobody sees
half a connection and no connection replaces another.
-/

namespace Courier

structure Depot where
  directory : String
  /-- Bytes that each connection may carry. -/
  capacity : Nat := 1048576
  running : Bool := false
  deriving DecidableEq, Repr

namespace Depot

/-- The kind of transport that depots are. -/
def id : TransportId := ⟨"murmur.file"⟩

/-- Seconds until a connection is expected to be picked up. -/
def latencySeconds : Nat := 86400

/-- Seconds between two looks at the directory. -/
def pollingSeconds : Nat := 60

def shouldPoll : Bool := true

def maxFrameLength : Nat := Frame.maxLength

def finishedExtension : String := "dat"

def partialExtension : String := "tmp"

/-- Names that are tried before giving up. No working source of random bytes comes near. -/
def maxTries : Nat := UInt64.size

/-- A connection that is being left at a depot. -/
structure Deposit where
  directory : String
  /-- The file name without extension. -/
  stem : String
  bytes : Bytes := []
  released : Bool := false
  deriving DecidableEq, Repr

/-- A connection found at a depot. -/
structure Arrival where
  path : String
  bytes : Bytes
  deriving DecidableEq, Repr

def fileName (stem extension : String) : String :=
  stem ++ "." ++ extension

def Deposit.path (d : Deposit) : String :=
  FileStore.join d.directory (fileName d.stem partialExtension)

/-- Write to a connection; what comes after its release is lost. -/
def Deposit.write (d : Deposit) (bytes : Bytes) : Deposit :=
  if d.released then d else { d with bytes := d.bytes ++ bytes }

variable {m : Type → Type} [Monad m] [FileStore m]

/-- Make sure that the directory is there, and run. -/
def start (depot : Depot) : m (Except ConnectionFault Unit × Depot) := do
  match ← FileStore.createDirectories depot.directory with
  | .ok () => return (.ok (), { depot with running := true })
  | .error fault => return (.error (.ofDevice fault), depot)

def stop (depot : Depot) : Depot :=
  { depot with running := false }

variable [Entropy m]

/-- A random file name without extension. -/
def drawStem : m String := do
  return hexText (← Entropy.draw 16)

/-- Create an unfinished connection under an unused name. -/
def createPartial (directory : String) : (tries : Nat) → m (Except ConnectionFault Deposit)
  | 0 => return .error (.device "no unused name")
  | tries + 1 => do
      let deposit : Deposit := { directory, stem := ← drawStem }
      match ← FileStore.createNew deposit.path with
      | .ok () => return .ok deposit
      | .error fault =>
          if fault.kind = .alreadyExists then createPartial directory tries
          else return .error (.ofDevice fault)

/-- A new connection; none while the depot is not running. -/
def deposit (depot : Depot) : m (Except ConnectionFault (Option Deposit)) := do
  if depot.running then
    return (← createPartial depot.directory maxTries).map some
  else
    return .ok none

/-- A path for the finished connection that nothing has yet: the one with its own stem if that is
    free, else one with a random stem. -/
def unusedPath (directory : String) : (tries : Nat) → (stem : String) →
    m (Except ConnectionFault String)
  | 0, _ => return .error (.device "no unused name")
  | tries + 1, stem => do
      let path := FileStore.join directory (fileName stem finishedExtension)
      match ← FileStore.isThere path with
      | .error fault => return .error (.ofDevice fault)
      | .ok false => return .ok path
      | .ok true => unusedPath directory tries (← drawStem)

def publish (d : Deposit) : m (Except ConnectionFault Unit) := do
  match ← unusedPath d.directory maxTries d.stem with
  | .error fault => return .error fault
  | .ok path => return (← FileStore.rename d.path path).mapError .ofDevice

/-- Release a connection. Without exception it is published, unless it is empty. Only the first
    release counts. -/
def Deposit.dispose (exception : Bool) (d : Deposit) :
    m (Except ConnectionFault Unit × Deposit) := do
  if d.released then
    return (.ok (), d)
  let released := { d with released := true }
  if exception then
    let _ ← FileStore.remove d.path
    return (.ok (), released)
  match ← FileStore.fill d.path d.bytes with
  | .error fault => return (.error (.ofDevice fault), released)
  | .ok () =>
      if d.bytes.isEmpty then
        let _ ← FileStore.remove d.path
        return (.ok (), released)
      return (← publish d, released)

omit [Entropy m]

/-- Open the named files, in order. -/
def openAll (directory : String) : List String → m (Except ConnectionFault (List Arrival))
  | [] => return .ok []
  | name :: names => do
      let path := FileStore.join directory name
      match ← FileStore.read path with
      | .error fault => return .error (.ofDevice fault)
      | .ok bytes => return (← openAll directory names).map ({ path, bytes } :: ·)

/-- The finished connections, in the order of their names; none while the depot is not running. -/
def poll (depot : Depot) : m (Except ConnectionFault (List Arrival)) := do
  if !depot.running then
    return .ok []
  match ← FileStore.fileNames depot.directory with
  | .error fault => return .error (.ofDevice fault)
  | .ok names =>
      let finished := names.filter (FileStore.extension? · = some finishedExtension)
      openAll depot.directory (finished.mergeSort (· ≤ ·))

/-- Release a connection that was found. It is removed only if it was recognised and read without
    exception; it may be meant for someone else. -/
def Arrival.dispose (exception recognised : Bool) (a : Arrival) :
    m (Except ConnectionFault Unit) := do
  if !exception && recognised then
    return (← FileStore.remove a.path).mapError .ofDevice
  else
    return .ok ()

end Depot

end Courier
