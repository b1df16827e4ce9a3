import Courier.Symmetric.GaloisField

/-! # Authenticated encryption in counter mode

GCM over any block permutation `encrypt`. The ciphertext is the plaintext plus
a keystream that depends on the nonce only; the code is a polynomial in the
encrypted zero block, evaluated over the associated data, the ciphertext and
their lengths, plus one more keystream block.

Opening recomputes the code from the ciphertext before it deciphers, so what it
accepts is exactly what sealing produces.
-/

namespace Courier.CounterMode

def codeLength : Nat := 16

/-- The keystream of the `count` counters after `counter`. -/
def keystream (encrypt : Block → Block) : (counter : Block) → (count : Nat) → Bytes
  | _, 0 => []
  | counter, count + 1 =>
      (encrypt counter.succ).toBytes ++ keystream encrypt counter.succ count

/-- Add the keystream after `counter` to `text`. Applied twice it gives `text` back. -/
def cipher (encrypt : Block → Block) (counter : Block) (text : Bytes) : Bytes :=
  xorBytes text (keystream encrypt counter ((text.length + 15) / 16))

/-- The blocks of `bytes`, the last one filled up with zeros. -/
def blocks (bytes : Bytes) : List Block :=
  (chunks 16 bytes).map Block.ofBytes

/-- Value at `point` of the polynomial whose coefficients are `xs`, the highest power first, without
    a constant term. -/
def polynomialHash (point : FieldElement) (xs : List Block) : FieldElement :=
  xs.foldl (fun sum x => (sum.add (FieldElement.ofBlock x)).mul point) FieldElement.zero

/-- The closing block: the lengths in bits of associated data and ciphertext. -/
def lengthBlock (aad text : Bytes) : Block :=
  .ofBytes (bigEndian 8 (8 * aad.length) ++ bigEndian 8 (8 * text.length))

/-- The counter block of a nonce. Twelve bytes are followed by the counter 1; any other nonce is
    hashed together with its length. -/
def startCounter (encrypt : Block → Block) (nonce : Bytes) : Block :=
  if nonce.length = 12 then
    .ofBytes (nonce ++ bigEndian 4 1)
  else
    (polynomialHash (.ofBlock (encrypt .zero))
      (blocks nonce ++ [lengthBlock [] nonce])).toBlock

def code (encrypt : Block → Block) (counter : Block) (aad text : Bytes) : Block :=
  (polynomialHash (.ofBlock (encrypt .zero))
    (blocks aad ++ blocks text ++ [lengthBlock aad text])).toBlock.xor (encrypt counter)

/-- Ciphertext followed by its code. -/
def sealed (encrypt : Block → Block) (nonce aad plaintext : Bytes) : Bytes :=
  let counter := startCounter encrypt nonce
  let text := cipher encrypt counter plaintext
  text ++ (code encrypt counter aad text).toBytes

/-- The plaintext of a sealed text whose code is right. -/
def opened? (encrypt : Block → Block) (nonce aad sealed : Bytes) : Option Bytes :=
  let counter := startCounter encrypt nonce
  let text := sealed.take (sealed.length - codeLength)
  if sealed.drop (sealed.length - codeLength) = (code encrypt counter aad text).toBytes then
    some (cipher encrypt counter text)
  else
    none

end Courier.CounterMode
