/-!
# SHA-256

The SHA-256 digest of FIPS 180-4: the message is padded with a one bit, zeros and its bit length
to whole 64-octet blocks, each block is expanded to a schedule of sixty-four words, and sixty-four
rounds of compression fold it into eight chaining words. The digest is those words, big-endian,
written as 64 lowercase hexadecimal digits.
-/

namespace HostInventory.Sha256

/-- The round constants: the first 32 bits of the fractional parts of the cube roots of the
first sixty-four primes. -/
def roundConstants : Array UInt32 := #[
  0x428a2f98, 0x71374491, 0xb5c0fbcf, 0xe9b5dba5, 0x3956c25b, 0x59f111f1, 0x923f82a4, 0xab1c5ed5,
  0xd807aa98, 0x12835b01, 0x243185be, 0x550c7dc3, 0x72be5d74, 0x80deb1fe, 0x9bdc06a7, 0xc19bf174,
  0xe49b69c1, 0xefbe4786, 0x0fc19dc6, 0x240ca1cc, 0x2de92c6f, 0x4a7484aa, 0x5cb0a9dc, 0x76f988da,
  0x983e5152, 0xa831c66d, 0xb00327c8, 0xbf597fc7, 0xc6e00bf3, 0xd5a79147, 0x06ca6351, 0x14292967,
  0x27b70a85, 0x2e1b2138, 0x4d2c6dfc, 0x53380d13, 0x650a7354, 0x766a0abb, 0x81c2c92e, 0x92722c85,
  0xa2bfe8a1, 0xa81a664b, 0xc24b8b70, 0xc76c51a3, 0xd192e819, 0xd6990624, 0xf40e3585, 0x106aa070,
  0x19a4c116, 0x1e376c08, 0x2748774c, 0x34b0bcb5, 0x391c0cb3, 0x4ed8aa4a, 0x5b9cca4f, 0x682e6ff3,
  0x748f82ee, 0x78a5636f, 0x84c87814, 0x8cc70208, 0x90befffa, 0xa4506ceb, 0xbef9a3f7, 0xc67178f2]

/-- The initial chaining words: the first 32 bits of the fractional parts of the square roots of
the first eight primes. -/
def initialState : Array UInt32 :=
  #[0x6a09e667, 0xbb67ae85, 0x3c6ef372, 0xa54ff53a, 0x510e527f, 0x9b05688c, 0x1f83d9ab, 0x5be0cd19]

/-- Rotation of a word to the right. -/
def rotr (x : UInt32) (n : UInt32) : UInt32 := (x >>> n) ||| (x <<< (32 - n))

/-- The round function Σ₀ of the first working word. -/
def bigSigma0 (x : UInt32) : UInt32 := rotr x 2 ^^^ rotr x 13 ^^^ rotr x 22

/-- The round function Σ₁ of the fifth working word. -/
def bigSigma1 (x : UInt32) : UInt32 := rotr x 6 ^^^ rotr x 11 ^^^ rotr x 25

/-- The schedule function σ₀, applied to the word fifteen places back. -/
def sigma0 (x : UInt32) : UInt32 := rotr x 7 ^^^ rotr x 18 ^^^ (x >>> 3)

/-- The schedule function σ₁, applied to the word two places back. -/
def sigma1 (x : UInt32) : UInt32 := rotr x 17 ^^^ rotr x 19 ^^^ (x >>> 10)

/-- The padded message: the octets, `0x80`, zeros up to 56 modulo 64, and the bit length as
eight big-endian octets. -/
def pad (message : List Nat) : Array UInt8 :=
  let len := message.length
  let zeros := (119 - len % 64) % 64
  let bits := 8 * len
  let lengthOctets := (List.range 8).reverse.map (fun i => (bits / Nat.pow 256 i % 256))
  (message ++ [0x80] ++ List.replicate zeros 0 ++ lengthOctets).toArray.map Nat.toUInt8

/-- The big-endian word at an octet position. -/
def wordAt (octets : Array UInt8) (i : Nat) : UInt32 :=
  let b (k : Nat) : UInt32 := (octets.getD (i + k) 0).toUInt32
  (b 0 <<< 24) ||| (b 1 <<< 16) ||| (b 2 <<< 8) ||| b 3

/-- The sixty-four schedule words of the block at an octet position. -/
def schedule (octets : Array UInt8) (start : Nat) : Array UInt32 :=
  let first := (List.range 16).toArray.map (fun i => wordAt octets (start + 4 * i))
  (List.range 48).foldl (fun w j =>
    let i := j + 16
    w.push (sigma1 (w.getD (i - 2) 0) + w.getD (i - 7) 0 + sigma0 (w.getD (i - 15) 0) +
      w.getD (i - 16) 0)) first

/-- One compression: the chaining words after the block at an octet position. -/
def compress (state : Array UInt32) (octets : Array UInt8) (start : Nat) : Array UInt32 :=
  let w := schedule octets start
  let get (i : Nat) : UInt32 := state.getD i 0
  let round := fun (v : UInt32 × UInt32 × UInt32 × UInt32 × UInt32 × UInt32 × UInt32 × UInt32)
      (t : Nat) =>
    let (a, b, c, d, e, f, g, h) := v
    let t1 := h + bigSigma1 e + ((e &&& f) ^^^ (~~~e &&& g)) + roundConstants.getD t 0 + w.getD t 0
    let t2 := bigSigma0 a + ((a &&& b) ^^^ (a &&& c) ^^^ (b &&& c))
    (t1 + t2, a, b, c, d + t1, e, f, g)
  let (a, b, c, d, e, f, g, h) :=
    (List.range 64).foldl round (get 0, get 1, get 2, get 3, get 4, get 5, get 6, get 7)
  #[get 0 + a, get 1 + b, get 2 + c, get 3 + d, get 4 + e, get 5 + f, get 6 + g, get 7 + h]

/-- The digest of a message as eight words. -/
def digestWords (message : List Nat) : Array UInt32 :=
  let octets := pad message
  (List.range (octets.size / 64)).foldl (fun s k => compress s octets (64 * k)) initialState

/-- The digest as 64 lowercase hexadecimal digits. -/
def hexDigest (message : List Nat) : String :=
  let digit (d : Nat) : Char := Char.ofNat (if d < 10 then 0x30 + d else 0x57 + d)
  let word (x : UInt32) : List Char :=
    (List.range 8).reverse.map (fun i => digit (x.toNat / Nat.pow 16 i % 16))
  String.ofList ((digestWords message).toList.flatMap word)

end HostInventory.Sha256
