import Courier.Symmetric.Block
import Courier.Symmetric.SubstitutionTable

/-! # The block cipher

AES with a 256-bit key: a permutation of the sixteen-byte blocks for every key.
Encryption applies fourteen rounds, each a chain of four steps (substitute the
bytes, shift the rows, mix the columns, add a round key). Decryption undoes the
steps in the opposite order.

Doubling in the field of 256 elements is written with shifts and exclusive ors
only, so it is visibly additive, and so is the mixing of a column.
-/

namespace Courier.BlockCipher

/-- Multiplication by 2 in the field of 256 elements with modulus `x^8 + x^4 + x^3 + x + 1`. -/
def double (b : UInt8) : UInt8 :=
  let carry := b >>> 7
  (b <<< 1) ^^^ carry ^^^ (carry <<< 1) ^^^ (carry <<< 3) ^^^ (carry <<< 4)

/-- Multiply a column by the circulant matrix with first row `2 3 1 1`. -/
def mixColumn (x : Column) : Column :=
  let all := x.a ^^^ x.b ^^^ x.c ^^^ x.d
  ⟨x.a ^^^ double (x.a ^^^ x.b) ^^^ all, x.b ^^^ double (x.b ^^^ x.c) ^^^ all,
    x.c ^^^ double (x.c ^^^ x.d) ^^^ all, x.d ^^^ double (x.d ^^^ x.a) ^^^ all⟩

/-- Multiply a column by the circulant matrix with first row `5 0 4 0`, the square of the mixing
    matrix and its own inverse. -/
def mixColumnTwice (x : Column) : Column :=
  let ac := double (double (x.a ^^^ x.c))
  let bd := double (double (x.b ^^^ x.d))
  ⟨x.a ^^^ ac, x.b ^^^ bd, x.c ^^^ ac, x.d ^^^ bd⟩

/-- Undo `mixColumn`, whose fourth power is the identity. -/
def unmixColumn (x : Column) : Column :=
  mixColumnTwice (mixColumn x)

def mixColumns (x : Block) : Block :=
  ⟨mixColumn x.c0, mixColumn x.c1, mixColumn x.c2, mixColumn x.c3⟩

def unmixColumns (x : Block) : Block :=
  ⟨unmixColumn x.c0, unmixColumn x.c1, unmixColumn x.c2, unmixColumn x.c3⟩

/-- Move row `i` of the block left by `i` columns. -/
def shiftRows (x : Block) : Block :=
  ⟨⟨x.c0.a, x.c1.b, x.c2.c, x.c3.d⟩, ⟨x.c1.a, x.c2.b, x.c3.c, x.c0.d⟩,
    ⟨x.c2.a, x.c3.b, x.c0.c, x.c1.d⟩, ⟨x.c3.a, x.c0.b, x.c1.c, x.c2.d⟩⟩

/-- Move row `i` of the block right by `i` columns. -/
def unshiftRows (x : Block) : Block :=
  ⟨⟨x.c0.a, x.c3.b, x.c2.c, x.c1.d⟩, ⟨x.c1.a, x.c0.b, x.c3.c, x.c2.d⟩,
    ⟨x.c2.a, x.c1.b, x.c0.c, x.c3.d⟩, ⟨x.c3.a, x.c2.b, x.c1.c, x.c0.d⟩⟩

@[simp] theorem unshiftRows_shiftRows (x : Block) : unshiftRows (shiftRows x) = x := rfl

@[simp] theorem shiftRows_unshiftRows (x : Block) : shiftRows (unshiftRows x) = x := rfl

def round (key x : Block) : Block :=
  (mixColumns (shiftRows (x.map substitute))).xor key

def unround (key x : Block) : Block :=
  (unshiftRows (unmixColumns (x.xor key))).map restore

/-- The last round, which does not mix the columns. -/
def lastRound (key x : Block) : Block :=
  (shiftRows (x.map substitute)).xor key

def unlastRound (key x : Block) : Block :=
  (unshiftRows (x.xor key)).map restore

/-- Round keys in the order of encryption. -/
structure Schedule where
  /-- Added to the plaintext. -/
  first : Block
  /-- One for each full round. -/
  full : List Block
  /-- Added in the last round. -/
  last : Block

def Schedule.encrypt (keys : Schedule) (x : Block) : Block :=
  lastRound keys.last (keys.full.foldl (fun x key => round key x) (x.xor keys.first))

def Schedule.decrypt (keys : Schedule) (x : Block) : Block :=
  (keys.full.foldr unround (unlastRound keys.last x)).xor keys.first

/-- Chain `x` through the columns of `key`: each new column adds the one before it. -/
def chain (x : Column) (key : Block) : Block :=
  let c0 := key.c0.xor x
  let c1 := key.c1.xor c0
  let c2 := key.c2.xor c1
  ⟨c0, c1, c2, key.c3.xor c2⟩

/-- A column moved up by one byte. -/
def rotate (x : Column) : Column :=
  ⟨x.b, x.c, x.d, x.a⟩

/-- The round keys that follow the pair `even`, `odd`: `count` pairs, the last one halved. -/
def laterKeys : (count : Nat) → (constant : UInt8) → (even odd : Block) → List Block × Block
  | 0, _, even, _ => ([], even)
  | 1, constant, even, odd =>
      ([odd], chain (((rotate odd.c3).map substitute).xor ⟨constant, 0, 0, 0⟩) even)
  | count + 1, constant, even, odd =>
      let even' := chain (((rotate odd.c3).map substitute).xor ⟨constant, 0, 0, 0⟩) even
      let odd' := chain (even'.c3.map substitute) odd
      let (full, last) := laterKeys count (double constant) even' odd'
      (odd :: even' :: full, last)

/-- The fifteen round keys of a 256-bit key, given as its two halves. -/
def schedule (high low : Block) : Schedule :=
  let (full, last) := laterKeys 7 1 high low
  ⟨high, full, last⟩

end Courier.BlockCipher
