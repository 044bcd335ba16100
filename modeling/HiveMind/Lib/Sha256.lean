import Mathlib

/-!
# SHA-256

The hash function of FIPS 180-4, over lists of bytes, and the lowercase hexadecimal spelling of a
digest. Nothing in the development depends on the values it takes: the results hold of every
function that returns 32 bytes, and `Hash256` is the parameter they are stated over. The instance
at the end makes closed statements speak about the real function.
-/

/-- A hash function with 32 bytes of output. -/
class Hash256 where
  digest : List UInt8 → Vector UInt8 32

namespace Sha256

/-! ## The compression function -/

/-- Words are natural numbers below this. -/
def wordModulus : ℕ := 0x100000000

def roundConstants : List ℕ := [
  0x428a2f98, 0x71374491, 0xb5c0fbcf, 0xe9b5dba5, 0x3956c25b, 0x59f111f1, 0x923f82a4, 0xab1c5ed5,
  0xd807aa98, 0x12835b01, 0x243185be, 0x550c7dc3, 0x72be5d74, 0x80deb1fe, 0x9bdc06a7, 0xc19bf174,
  0xe49b69c1, 0xefbe4786, 0x0fc19dc6, 0x240ca1cc, 0x2de92c6f, 0x4a7484aa, 0x5cb0a9dc, 0x76f988da,
  0x983e5152, 0xa831c66d, 0xb00327c8, 0xbf597fc7, 0xc6e00bf3, 0xd5a79147, 0x06ca6351, 0x14292967,
  0x27b70a85, 0x2e1b2138, 0x4d2c6dfc, 0x53380d13, 0x650a7354, 0x766a0abb, 0x81c2c92e, 0x92722c85,
  0xa2bfe8a1, 0xa81a664b, 0xc24b8b70, 0xc76c51a3, 0xd192e819, 0xd6990624, 0xf40e3585, 0x106aa070,
  0x19a4c116, 0x1e376c08, 0x2748774c, 0x34b0bcb5, 0x391c0cb3, 0x4ed8aa4a, 0x5b9cca4f, 0x682e6ff3,
  0x748f82ee, 0x78a5636f, 0x84c87814, 0x8cc70208, 0x90befffa, 0xa4506ceb, 0xbef9a3f7, 0xc67178f2]

/-- The eight working words. -/
structure Words where
  a : ℕ
  b : ℕ
  c : ℕ
  d : ℕ
  e : ℕ
  f : ℕ
  g : ℕ
  h : ℕ

def initial : Words where
  a := 0x6a09e667
  b := 0xbb67ae85
  c := 0x3c6ef372
  d := 0xa54ff53a
  e := 0x510e527f
  f := 0x9b05688c
  g := 0x1f83d9ab
  h := 0x5be0cd19

def add (x y : ℕ) : ℕ := (x + y) % wordModulus

def rotr (x n : ℕ) : ℕ := (x >>> n) ||| (x <<< (32 - n)) % wordModulus

def smallSigma0 (x : ℕ) : ℕ := rotr x 7 ^^^ rotr x 18 ^^^ (x >>> 3)

def smallSigma1 (x : ℕ) : ℕ := rotr x 17 ^^^ rotr x 19 ^^^ (x >>> 10)

def bigSigma0 (x : ℕ) : ℕ := rotr x 2 ^^^ rotr x 13 ^^^ rotr x 22

def bigSigma1 (x : ℕ) : ℕ := rotr x 6 ^^^ rotr x 11 ^^^ rotr x 25

def choose (x y z : ℕ) : ℕ := (x &&& y) ^^^ ((x ^^^ (wordModulus - 1)) &&& z)

def majority (x y z : ℕ) : ℕ := (x &&& y) ^^^ (x &&& z) ^^^ (y &&& z)

/-- One round, with the word and the constant of the round added up. -/
def round : Words → ℕ → Words
  | ⟨a, b, c, d, e, f, g, h⟩, kw =>
    let t1 := add (add h (bigSigma1 e)) (add (choose e f g) kw)
    let t2 := add (bigSigma0 a) (majority a b c)
    ⟨add t1 t2, a, b, c, add d t1, e, f, g⟩

/-- The message schedule, most recent word first: `n` further words after the sixteen of the
block. -/
def schedule (block : List ℕ) : ℕ → List ℕ
  | 0 => block.reverse
  | n + 1 =>
    let w := schedule block n
    add (add (smallSigma1 (w.getD 1 0)) (w.getD 6 0))
      (add (smallSigma0 (w.getD 14 0)) (w.getD 15 0)) :: w

def compress (s : Words) (block : List ℕ) : Words :=
  let r := (List.zipWith add roundConstants (schedule block 48).reverse).foldl round s
  ⟨add s.a r.a, add s.b r.b, add s.c r.c, add s.d r.d, add s.e r.e, add s.f r.f, add s.g r.g,
    add s.h r.h⟩

/-! ## Messages -/

/-- The number that the bytes spell, the most significant byte first. -/
def ofBytes (message : List ℕ) : ℕ := message.foldl (fun n b ↦ n * 256 + b) 0

/-- The `i`-th piece of `width` bits of a number, counted from its low end. -/
def piece (width n i : ℕ) : ℕ := (n >>> (width * i)) % 2 ^ width

def bytesOfWord (w : ℕ) : Vector UInt8 4 :=
  #v[UInt8.ofNat (w >>> 24), UInt8.ofNat (w >>> 16), UInt8.ofNat (w >>> 8), UInt8.ofNat w]

/-- The words of a block, in order. -/
def wordsOfBlock (block : ℕ) : List ℕ := (List.range 16).map fun i ↦ piece 32 block (15 - i)

/-- The blocks of a padded message: after it come a one bit, zeros up to eight bytes before a block
boundary, and its length in bits. -/
def blocks (message : List ℕ) : List ℕ :=
  let zeros := (119 - message.length % 64) % 64
  let padded := (ofBytes message * 256 + 0x80) <<< (8 * zeros + 64) ||| message.length * 8
  let count := (message.length + zeros + 9) / 64
  (List.range count).map fun i ↦ piece 512 padded (count - 1 - i)

def hash (message : List ℕ) : Words :=
  (blocks message).foldl (fun s block ↦ compress s (wordsOfBlock block)) initial

def digest (message : List UInt8) : Vector UInt8 32 :=
  let s := hash (message.map UInt8.toNat)
  bytesOfWord s.a ++ bytesOfWord s.b ++ bytesOfWord s.c ++ bytesOfWord s.d ++
    bytesOfWord s.e ++ bytesOfWord s.f ++ bytesOfWord s.g ++ bytesOfWord s.h

end Sha256

instance : Hash256 := ⟨Sha256.digest⟩

namespace Hash256

/-! ## The spelling of a digest -/

def hexByte (b : UInt8) : List Char :=
  [Nat.digitChar (b.toNat / 16), Nat.digitChar (b.toNat % 16)]

def isLowerHex (c : Char) : Bool := ('0' ≤ c && c ≤ '9') || ('a' ≤ c && c ≤ 'f')

private theorem isLowerHex_digitChar : ∀ n : Fin 16, isLowerHex (Nat.digitChar n.val) = true := by
  decide

theorem all_isLowerHex_hexByte (b : UInt8) : ∀ c ∈ hexByte b, isLowerHex c = true := by
  have hdiv : b.toNat / 16 < 16 := by have := b.toNat_lt; omega
  have hmod : b.toNat % 16 < 16 := Nat.mod_lt _ (by omega)
  intro c hc
  rw [hexByte, List.mem_cons, List.mem_singleton] at hc
  rcases hc with rfl | rfl
  · exact isLowerHex_digitChar ⟨_, hdiv⟩
  · exact isLowerHex_digitChar ⟨_, hmod⟩

theorem length_flatMap_hexByte (bs : List UInt8) :
    (bs.flatMap hexByte).length = 2 * bs.length := by
  induction bs with
  | nil => rfl
  | cons b bs ih =>
    rw [List.flatMap_cons, List.length_append, ih, List.length_cons, hexByte, List.length_cons,
      List.length_singleton]
    omega

variable [Hash256]

/-- The digest of a text's UTF-8 bytes, as 64 lowercase hexadecimal digits. -/
def hexChars (text : List Char) : List Char :=
  (digest (text.flatMap String.utf8EncodeChar)).toList.flatMap hexByte

def hexdigest (text : List Char) : String := String.ofList (hexChars text)

theorem all_isLowerHex_hexdigest (text : List Char) :
    ∀ c ∈ (hexdigest text).toList, isLowerHex c = true := by
  intro c hc
  rw [hexdigest, String.toList_ofList, hexChars, List.mem_flatMap] at hc
  obtain ⟨b, -, hb⟩ := hc
  exact all_isLowerHex_hexByte b c hb

theorem length_hexdigest (text : List Char) : (hexdigest text).toList.length = 64 := by
  rw [hexdigest, String.toList_ofList, hexChars, length_flatMap_hexByte, Vector.length_toList]

end Hash256

example : Hash256.hexdigest ['a', 'b', 'c']
    = "ba7816bf8f01cfea414140de5dae2223b00361a396177a9cb410ff61f20015ad" := by
  decide +kernel
