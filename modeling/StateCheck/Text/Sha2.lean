/-!
The hash functions SHA-256, SHA-384 and SHA-512.

All three pad the message to whole blocks and fold a compression function over the blocks; the
first works on words of 32 bits, the other two on words of 64. `Sha2.hex` writes a digest.
-/
namespace StateCheck.Sha2
set_option autoImplicit false

/-! ## Constants -/

def rounds32 : List UInt32 := [
  0x428a2f98, 0x71374491, 0xb5c0fbcf, 0xe9b5dba5, 0x3956c25b, 0x59f111f1, 0x923f82a4, 0xab1c5ed5,
  0xd807aa98, 0x12835b01, 0x243185be, 0x550c7dc3, 0x72be5d74, 0x80deb1fe, 0x9bdc06a7, 0xc19bf174,
  0xe49b69c1, 0xefbe4786, 0x0fc19dc6, 0x240ca1cc, 0x2de92c6f, 0x4a7484aa, 0x5cb0a9dc, 0x76f988da,
  0x983e5152, 0xa831c66d, 0xb00327c8, 0xbf597fc7, 0xc6e00bf3, 0xd5a79147, 0x06ca6351, 0x14292967,
  0x27b70a85, 0x2e1b2138, 0x4d2c6dfc, 0x53380d13, 0x650a7354, 0x766a0abb, 0x81c2c92e, 0x92722c85,
  0xa2bfe8a1, 0xa81a664b, 0xc24b8b70, 0xc76c51a3, 0xd192e819, 0xd6990624, 0xf40e3585, 0x106aa070,
  0x19a4c116, 0x1e376c08, 0x2748774c, 0x34b0bcb5, 0x391c0cb3, 0x4ed8aa4a, 0x5b9cca4f, 0x682e6ff3,
  0x748f82ee, 0x78a5636f, 0x84c87814, 0x8cc70208, 0x90befffa, 0xa4506ceb, 0xbef9a3f7, 0xc67178f2]

def rounds64 : List UInt64 := [
  0x428a2f98d728ae22, 0x7137449123ef65cd, 0xb5c0fbcfec4d3b2f, 0xe9b5dba58189dbbc,
  0x3956c25bf348b538, 0x59f111f1b605d019, 0x923f82a4af194f9b, 0xab1c5ed5da6d8118,
  0xd807aa98a3030242, 0x12835b0145706fbe, 0x243185be4ee4b28c, 0x550c7dc3d5ffb4e2,
  0x72be5d74f27b896f, 0x80deb1fe3b1696b1, 0x9bdc06a725c71235, 0xc19bf174cf692694,
  0xe49b69c19ef14ad2, 0xefbe4786384f25e3, 0x0fc19dc68b8cd5b5, 0x240ca1cc77ac9c65,
  0x2de92c6f592b0275, 0x4a7484aa6ea6e483, 0x5cb0a9dcbd41fbd4, 0x76f988da831153b5,
  0x983e5152ee66dfab, 0xa831c66d2db43210, 0xb00327c898fb213f, 0xbf597fc7beef0ee4,
  0xc6e00bf33da88fc2, 0xd5a79147930aa725, 0x06ca6351e003826f, 0x142929670a0e6e70,
  0x27b70a8546d22ffc, 0x2e1b21385c26c926, 0x4d2c6dfc5ac42aed, 0x53380d139d95b3df,
  0x650a73548baf63de, 0x766a0abb3c77b2a8, 0x81c2c92e47edaee6, 0x92722c851482353b,
  0xa2bfe8a14cf10364, 0xa81a664bbc423001, 0xc24b8b70d0f89791, 0xc76c51a30654be30,
  0xd192e819d6ef5218, 0xd69906245565a910, 0xf40e35855771202a, 0x106aa07032bbd1b8,
  0x19a4c116b8d2d0c8, 0x1e376c085141ab53, 0x2748774cdf8eeb99, 0x34b0bcb5e19b48a8,
  0x391c0cb3c5c95a63, 0x4ed8aa4ae3418acb, 0x5b9cca4f7763e373, 0x682e6ff3d6b2b8a3,
  0x748f82ee5defb2fc, 0x78a5636f43172f60, 0x84c87814a1f0ab72, 0x8cc702081a6439ec,
  0x90befffa23631e28, 0xa4506cebde82bde9, 0xbef9a3f7b2c67915, 0xc67178f2e372532b,
  0xca273eceea26619c, 0xd186b8c721c0c207, 0xeada7dd6cde0eb1e, 0xf57d4f7fee6ed178,
  0x06f067aa72176fba, 0x0a637dc5a2c898a6, 0x113f9804bef90dae, 0x1b710b35131c471b,
  0x28db77f523047d84, 0x32caab7b40c72493, 0x3c9ebe0a15c9bebc, 0x431d67c49c100d4c,
  0x4cc5d4becb3e42b6, 0x597f299cfc657e2a, 0x5fcb6fab3ad6faec, 0x6c44198c4a475817]

def start256 : List UInt32 := [
  0x6a09e667, 0xbb67ae85, 0x3c6ef372, 0xa54ff53a, 0x510e527f, 0x9b05688c, 0x1f83d9ab, 0x5be0cd19]

def start384 : List UInt64 := [
  0xcbbb9d5dc1059ed8, 0x629a292a367cd507, 0x9159015a3070dd17, 0x152fecd8f70e5939,
  0x67332667ffc00b31, 0x8eb44a8768581511, 0xdb0c2e0d64f98fa7, 0x47b5481dbefa4fa4]

def start512 : List UInt64 := [
  0x6a09e667f3bcc908, 0xbb67ae8584caa73b, 0x3c6ef372fe94f82b, 0xa54ff53a5f1d36f1,
  0x510e527fade682d1, 0x9b05688c2b3e6c1f, 0x1f83d9abfb41bd6b, 0x5be0cd19137e2179]

/-! ## Padding -/

/-- The bytes of a number, most significant first. -/
def bigEndian (bytes n : Nat) : List UInt8 :=
  (List.range bytes).map fun i => UInt8.ofNat (n >>> (8 * (bytes - 1 - i)))

def ofBigEndian (bytes : List UInt8) : Nat := bytes.foldl (fun n b => n * 256 + b.toNat) 0

/-- The message with a one bit, zeros and its bit length, filling blocks of `block` bytes whose last
`lengthBytes` hold the length. -/
def pad (block lengthBytes : Nat) (message : List UInt8) : List UInt8 :=
  let n := message.length
  let zeros := (block - (n + 1 + lengthBytes) % block) % block
  message ++ 0x80 :: List.replicate zeros 0 ++ bigEndian lengthBytes (8 * n)

/-- A list cut in pieces of `size` elements, at most `limit` of them. -/
def pieces (size : Nat) : Nat → List UInt8 → List (List UInt8)
  | 0, _ => []
  | limit + 1, bytes =>
    if bytes.isEmpty then [] else bytes.take size :: pieces size limit (bytes.drop size)

/-! ## Compression -/

/-- The operations on words that the two word sizes do differently. -/
structure Ops (ω : Type) where
  upper0 : ω → ω
  upper1 : ω → ω
  lower0 : ω → ω
  lower1 : ω → ω

def rotate32 (x n : UInt32) : UInt32 := (x >>> n) ||| (x <<< (32 - n))

def rotate64 (x n : UInt64) : UInt64 := (x >>> n) ||| (x <<< (64 - n))

def ops32 : Ops UInt32 where
  upper0 x := rotate32 x 2 ^^^ rotate32 x 13 ^^^ rotate32 x 22
  upper1 x := rotate32 x 6 ^^^ rotate32 x 11 ^^^ rotate32 x 25
  lower0 x := rotate32 x 7 ^^^ rotate32 x 18 ^^^ (x >>> 3)
  lower1 x := rotate32 x 17 ^^^ rotate32 x 19 ^^^ (x >>> 10)

def ops64 : Ops UInt64 where
  upper0 x := rotate64 x 28 ^^^ rotate64 x 34 ^^^ rotate64 x 39
  upper1 x := rotate64 x 14 ^^^ rotate64 x 18 ^^^ rotate64 x 41
  lower0 x := rotate64 x 1 ^^^ rotate64 x 8 ^^^ (x >>> 7)
  lower1 x := rotate64 x 19 ^^^ rotate64 x 61 ^^^ (x >>> 6)

section Compression

variable {ω : Type} [Add ω] [AndOp ω] [XorOp ω] [Complement ω] [Inhabited ω]

/-- The message schedule in reverse, extended by `n` words. -/
def extend (ops : Ops ω) : Nat → List ω → List ω
  | 0, words => words
  | n + 1, words =>
    let back (i : Nat) : ω := words.getD i default
    let next := ops.lower1 (back 1) + back 6 + ops.lower0 (back 14) + back 15
    extend ops n (next :: words)

/-- One round: the eight working words with a round constant and a schedule word. -/
def round (ops : Ops ω) (s : List ω) (k w : ω) : List ω :=
  match s with
  | [a, b, c, d, e, f, g, h] =>
    let choice := (e &&& f) ^^^ (~~~e &&& g)
    let majority := (a &&& b) ^^^ (a &&& c) ^^^ (b &&& c)
    let t := h + ops.upper1 e + choice + k + w
    [t + ops.upper0 a + majority, a, b, c, d + t, e, f, g]
  | s => s

/-- The state after one block, given as sixteen words. -/
def compress (ops : Ops ω) (constants state block : List ω) : List ω :=
  let schedule := (extend ops (constants.length - 16) block.reverse).reverse
  let mixed := (constants.zip schedule).foldl (fun s (k, w) => round ops s k w) state
  List.zipWith (· + ·) state mixed

def run (ops : Ops ω) (constants start : List ω) (wordBytes : Nat) (ofNat : Nat → ω)
    (padded : List UInt8) : List ω :=
  let blocks := pieces (16 * wordBytes) padded.length padded
  blocks.foldl (fun state block =>
    compress ops constants state
      ((pieces wordBytes block.length block).map fun word => ofNat (ofBigEndian word))) start

end Compression

/-! ## Digests -/

def sha256 (message : List UInt8) : List UInt8 :=
  (run ops32 rounds32 start256 4 UInt32.ofNat (pad 64 8 message)).flatMap fun w =>
    bigEndian 4 w.toNat

def sha512 (message : List UInt8) : List UInt8 :=
  (run ops64 rounds64 start512 8 UInt64.ofNat (pad 128 16 message)).flatMap fun w =>
    bigEndian 8 w.toNat

def sha384 (message : List UInt8) : List UInt8 :=
  ((run ops64 rounds64 start384 8 UInt64.ofNat (pad 128 16 message)).flatMap
    fun w => bigEndian 8 w.toNat).take 48

def hex (bytes : List UInt8) : String :=
  String.ofList (bytes.flatMap fun b =>
    [Nat.digitChar (b.toNat / 16), Nat.digitChar (b.toNat % 16)])

end StateCheck.Sha2
