import Courier.Files.Tree
import Courier.Random.Mint

/-! # Rehearsals

A run over files in memory, with random bytes from a seeded stream, and with a
clock by which one iteration always takes too long. It shows what a command
does without doing it.
-/

namespace Courier

structure Rehearsal where
  files : FileTree := {}
  entropy : KeyStream := .ofSeed []

/-- A computation that only rehearses. -/
abbrev Rehearsing := StateM Rehearsal

namespace Rehearsal

def ask {α : Type} (question : FileTree → α) : Rehearsing α := fun r =>
  (question r.files, r)

def change {α : Type} (step : FileTree → α × FileTree) : Rehearsing α := fun r =>
  let (answer, files) := step r.files
  (answer, { r with files })

/-- Nanoseconds of a stretching without iterations. -/
def fixedNanoseconds : Nat := 1000000

/-- Nanoseconds of each iteration. -/
def iterationNanoseconds : Nat := 1000000000000000000000000000000

end Rehearsal

open Rehearsal FileTree

instance : FileStore Rehearsing where
  createDirectories path := change (createDirectories (.ofString path))
  fileNames path := ask (fileNames (.ofString path))
  read path := ask (read (.ofString path))
  write path content := change (write (.ofString path) content)
  createNew path := change (createNew (.ofString path))
  fill path content := change (fill (.ofString path) content)
  isThere path := ask (isThere (.ofString path))
  rename path newPath := change (rename (.ofString path) (.ofString newPath))
  remove path := change (remove (.ofString path))

instance : Entropy Rehearsing where
  draw count := fun r =>
    let (bytes, entropy) := r.entropy.take count
    (bytes, { r with entropy })

instance : Stopwatch Rehearsing where
  timeStretching iterations := return fixedNanoseconds + iterations * iterationNanoseconds

end Courier
