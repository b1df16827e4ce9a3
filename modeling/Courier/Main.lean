import Courier.Command.Run

/-! # The program

Commands over the files, the random bytes and the clock of the platform.
-/

namespace Courier

def kindOf : IO.Error → DeviceFault.Kind
  | .noFileOrDirectory _ _ _ | .noSuchThing _ _ _ => .notFound
  | .alreadyExists _ _ _ => .alreadyExists
  | .inappropriateType _ _ _ => .notADirectory
  | .unexpectedEof => .unexpectedEnd
  | _ => .other

/-- Run a step and catch its fault. -/
def attempt {α : Type} (step : IO α) : IO (Except DeviceFault α) := do
  try
    return .ok (← step)
  catch fault =>
    return .error ⟨kindOf fault, toString fault⟩

instance : FileStore IO where
  createDirectories path := attempt (IO.FS.createDirAll path)
  fileNames path := attempt do
    let entries ← ((← IO.currentDir) / path).readDir
    let plain ← entries.filterM fun entry => return !(← entry.path.isDir)
    return plain.toList.map (·.fileName)
  read path := attempt do return (← IO.FS.readBinFile path).toList
  write path content := attempt (IO.FS.writeBinFile path content.toByteArray)
  createNew path := attempt do
    let _ ← IO.FS.Handle.mk path .writeNew
  fill path content := attempt do
    let handle ← IO.FS.Handle.mk path .readWrite
    handle.write content.toByteArray
    handle.flush
  isThere path := attempt do return (← ((← IO.currentDir) / path).pathExists)
  rename path newPath := attempt (IO.FS.rename path newPath)
  remove path := attempt (IO.FS.removeFile path)

instance : Entropy IO where
  draw count := do
    return (← IO.getRandomBytes (.ofNat count)).toList

instance : Stopwatch IO where
  timeStretching iterations := do
    let start ← IO.monoNanosNow
    let header : Vault.Header := { salt := Block.zero, iterations, nonce := Block.zero }
    let key := header.key "password"
    -- the key decides nothing, but it has to be there before the clock is read again
    if key.isBlank then
      return 0
    return (← IO.monoNanosNow) - start

end Courier

def main (words : List String) : IO UInt32 := do
  let password ← IO.getEnv "MURMUR_PASSWORD"
  let outcome ← (Courier.Command.run password words : IO Courier.Command.Outcome)
  for line in outcome.lines do
    IO.println line
  if let some complaint := outcome.complaint then
    IO.eprintln complaint
  return outcome.exitCode
