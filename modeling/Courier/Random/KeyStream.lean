import Courier.Bytes

/-! # Key streams

The stream of words that the ChaCha20 block function makes of a seed and a
counter. A stream is asked for bytes and gives whole words, so what is left of
the last word of an answer is dropped.
-/

namespace Courier

namespace KeyStream

/-- The words of one block. -/
abbrev Block := Vector UInt32 16

def rotated (word : UInt32) (count : UInt32) : UInt32 :=
  word <<< count ||| word >>> (32 - count)

/-- Mix four words of a block. -/
def quarterRound (a b c d : Fin 16) (v : Block) : Block :=
  let step := fun (x y z : Fin 16) (count : UInt32) (v : Block) =>
    let v := v.set x (v[x] + v[y])
    v.set z (rotated (v[z] ^^^ v[x]) count)
  step c d b 7 (step a b d 8 (step c d b 12 (step a b d 16 v)))

/-- Mix the columns of a block, then its diagonals. -/
def doubleRound (v : Block) : Block :=
  let columns := fun v => quarterRound 3 7 11 15 (quarterRound 2 6 10 14
    (quarterRound 1 5 9 13 (quarterRound 0 4 8 12 v)))
  let diagonals := fun v => quarterRound 3 4 9 14 (quarterRound 2 7 8 13
    (quarterRound 1 6 11 12 (quarterRound 0 5 10 15 v)))
  diagonals (columns v)

/-- The number that four bytes spell, least significant first. -/
def wordOf (bytes : Bytes) : UInt32 :=
  .ofNat (ofBigEndian bytes.reverse)

/-- Four bytes that spell a word, least significant first. -/
def bytesOf (word : UInt32) : Bytes :=
  (bigEndian 4 word.toNat).reverse

/-- What the words of block `counter` are mixed from. -/
def input (key : Vector UInt32 8) (counter : Nat) : Block :=
  #v[0x61707865, 0x3320646e, 0x79622d32, 0x6b206574,
    key[0], key[1], key[2], key[3], key[4], key[5], key[6], key[7],
    .ofNat counter, .ofNat (counter / UInt32.size), 0, 0]

/-- The words of block `counter`. -/
def block (key : Vector UInt32 8) (counter : Nat) : Block :=
  let v := input key counter
  Vector.zipWith (· + ·) (Nat.repeat doubleRound 10 v) v

end KeyStream

structure KeyStream where
  key : Vector UInt32 8
  /-- Number of the next block. -/
  counter : Nat := 0
  /-- Words of the last block that were not used yet. -/
  rest : List UInt32 := []

namespace KeyStream

/-- The stream of a seed of 32 bytes; a shorter one counts as continued by zeros. -/
def ofSeed (seed : Bytes) : KeyStream where
  key := .ofFn fun i => wordOf (((seed ++ List.replicate 32 0).drop (4 * i.val)).take 4)

def words : (count : Nat) → KeyStream → List UInt32 × KeyStream
  | 0, s => ([], s)
  | count + 1, s =>
      match s.rest with
      | word :: rest =>
          let (words, s) := words count { s with rest }
          (word :: words, s)
      | [] =>
          let fresh := block s.key s.counter
          let (words, s) :=
            words count { s with counter := s.counter + 1, rest := fresh.toList.tail }
          (fresh[0] :: words, s)

def take (count : Nat) (s : KeyStream) : Bytes × KeyStream :=
  let (words, s) := s.words ((count + 3) / 4)
  ((words.flatMap bytesOf).take count, s)

end KeyStream

end Courier
