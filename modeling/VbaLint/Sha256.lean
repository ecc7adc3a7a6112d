/-!
# SHA-256

The digest that tells whether the text of a module has changed, written as lowercase hex.
-/

namespace VbaLint.Sha256

/-- The first 32 fractional bits of the cube roots of the first 64 primes. -/
def roundConstants : Array UInt32 :=
  #[0x428a2f98, 0x71374491, 0xb5c0fbcf, 0xe9b5dba5, 0x3956c25b, 0x59f111f1, 0x923f82a4, 0xab1c5ed5,
    0xd807aa98, 0x12835b01, 0x243185be, 0x550c7dc3, 0x72be5d74, 0x80deb1fe, 0x9bdc06a7, 0xc19bf174,
    0xe49b69c1, 0xefbe4786, 0x0fc19dc6, 0x240ca1cc, 0x2de92c6f, 0x4a7484aa, 0x5cb0a9dc, 0x76f988da,
    0x983e5152, 0xa831c66d, 0xb00327c8, 0xbf597fc7, 0xc6e00bf3, 0xd5a79147, 0x06ca6351, 0x14292967,
    0x27b70a85, 0x2e1b2138, 0x4d2c6dfc, 0x53380d13, 0x650a7354, 0x766a0abb, 0x81c2c92e, 0x92722c85,
    0xa2bfe8a1, 0xa81a664b, 0xc24b8b70, 0xc76c51a3, 0xd192e819, 0xd6990624, 0xf40e3585, 0x106aa070,
    0x19a4c116, 0x1e376c08, 0x2748774c, 0x34b0bcb5, 0x391c0cb3, 0x4ed8aa4a, 0x5b9cca4f, 0x682e6ff3,
    0x748f82ee, 0x78a5636f, 0x84c87814, 0x8cc70208, 0x90befffa, 0xa4506ceb, 0xbef9a3f7, 0xc67178f2]

structure State where
  a : UInt32
  b : UInt32
  c : UInt32
  d : UInt32
  e : UInt32
  f : UInt32
  g : UInt32
  h : UInt32

/-- The first 32 fractional bits of the square roots of the first eight primes. -/
def initial : State :=
  ⟨0x6a09e667, 0xbb67ae85, 0x3c6ef372, 0xa54ff53a, 0x510e527f, 0x9b05688c, 0x1f83d9ab, 0x5be0cd19⟩

def rotate (word count : UInt32) : UInt32 := (word >>> count) ||| (word <<< (32 - count))

def extendSchedule (words : Array UInt32) (i : Nat) : Array UInt32 :=
  let early := words.getD (i - 15) 0
  let late := words.getD (i - 2) 0
  let s0 := rotate early 7 ^^^ rotate early 18 ^^^ (early >>> 3)
  let s1 := rotate late 17 ^^^ rotate late 19 ^^^ (late >>> 10)
  words.push (words.getD (i - 16) 0 + s0 + words.getD (i - 7) 0 + s1)

def schedule (block : Array UInt32) : Array UInt32 :=
  (List.range' 16 48).foldl extendSchedule block

def step (words : Array UInt32) (s : State) (i : Nat) : State :=
  let s1 := rotate s.e 6 ^^^ rotate s.e 11 ^^^ rotate s.e 25
  let choice := (s.e &&& s.f) ^^^ ((~~~s.e) &&& s.g)
  let t1 := s.h + s1 + choice + roundConstants.getD i 0 + words.getD i 0
  let s0 := rotate s.a 2 ^^^ rotate s.a 13 ^^^ rotate s.a 22
  let majority := (s.a &&& s.b) ^^^ (s.a &&& s.c) ^^^ (s.b &&& s.c)
  ⟨t1 + (s0 + majority), s.a, s.b, s.c, s.d + t1, s.e, s.f, s.g⟩

def absorb (s : State) (block : Array UInt32) : State :=
  let t := (List.range 64).foldl (step (schedule block)) s
  ⟨s.a + t.a, s.b + t.b, s.c + t.c, s.d + t.d, s.e + t.e, s.f + t.f, s.g + t.g, s.h + t.h⟩

/-- The eight bytes of a number below 2 to the 64, highest first. -/
def bigEndian (n : Nat) : List UInt8 :=
  (List.range 8).map fun i ↦ UInt8.ofNat (n >>> (8 * (7 - i)))

/-- The message with a one bit, zeros and its bit length, so that it fills whole blocks. -/
def pad (message : ByteArray) : ByteArray :=
  let zeros := (55 + 64 - message.size % 64) % 64
  ((List.replicate zeros 0 ++ bigEndian (8 * message.size)).foldl ByteArray.push
    (message.push 0x80))

def wordAt (bytes : ByteArray) (offset : Nat) : UInt32 :=
  (List.range 4).foldl
    (fun word i ↦ (word <<< 8) ||| (bytes.data.getD (offset + i) 0).toUInt32) 0

def blockAt (bytes : ByteArray) (index : Nat) : Array UInt32 :=
  ((List.range 16).map fun i ↦ wordAt bytes (64 * index + 4 * i)).toArray

def digest (message : ByteArray) : State :=
  let padded := pad message
  (List.range (padded.size / 64)).foldl (fun s index ↦ absorb s (blockAt padded index)) initial

def hexWord (word : UInt32) : List Char :=
  (List.range 8).map fun i ↦ Nat.digitChar ((word.toNat >>> (4 * (7 - i))) % 16)

def hex (message : ByteArray) : String :=
  let s := digest message
  String.ofList <| [s.a, s.b, s.c, s.d, s.e, s.f, s.g, s.h].flatMap hexWord

end VbaLint.Sha256
