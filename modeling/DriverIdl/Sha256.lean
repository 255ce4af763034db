import DriverIdl.Text.Quoted

/-!
# SHA-256

The 256-bit secure hash of a sequence of bytes: the bytes are padded to blocks of 64 and every block
is compressed into a state of eight words.
-/

namespace DriverIdl.Sha256

/-- The first words of the fractional parts of the cube roots of the first 64 primes. -/
def roundConstants : Array UInt32 := #[
  0x428a2f98, 0x71374491, 0xb5c0fbcf, 0xe9b5dba5, 0x3956c25b, 0x59f111f1, 0x923f82a4, 0xab1c5ed5,
  0xd807aa98, 0x12835b01, 0x243185be, 0x550c7dc3, 0x72be5d74, 0x80deb1fe, 0x9bdc06a7, 0xc19bf174,
  0xe49b69c1, 0xefbe4786, 0x0fc19dc6, 0x240ca1cc, 0x2de92c6f, 0x4a7484aa, 0x5cb0a9dc, 0x76f988da,
  0x983e5152, 0xa831c66d, 0xb00327c8, 0xbf597fc7, 0xc6e00bf3, 0xd5a79147, 0x06ca6351, 0x14292967,
  0x27b70a85, 0x2e1b2138, 0x4d2c6dfc, 0x53380d13, 0x650a7354, 0x766a0abb, 0x81c2c92e, 0x92722c85,
  0xa2bfe8a1, 0xa81a664b, 0xc24b8b70, 0xc76c51a3, 0xd192e819, 0xd6990624, 0xf40e3585, 0x106aa070,
  0x19a4c116, 0x1e376c08, 0x2748774c, 0x34b0bcb5, 0x391c0cb3, 0x4ed8aa4a, 0x5b9cca4f, 0x682e6ff3,
  0x748f82ee, 0x78a5636f, 0x84c87814, 0x8cc70208, 0x90befffa, 0xa4506ceb, 0xbef9a3f7, 0xc67178f2]

/-- Eight working words. -/
structure State where
  a : UInt32
  b : UInt32
  c : UInt32
  d : UInt32
  e : UInt32
  f : UInt32
  g : UInt32
  h : UInt32
  deriving DecidableEq, Inhabited

namespace State

/-- The first words of the fractional parts of the square roots of the first 8 primes. -/
def initial : State :=
  ⟨0x6a09e667, 0xbb67ae85, 0x3c6ef372, 0xa54ff53a, 0x510e527f, 0x9b05688c, 0x1f83d9ab, 0x5be0cd19⟩

/-- The words of a state in order. -/
def words (state : State) : List UInt32 :=
  [state.a, state.b, state.c, state.d, state.e, state.f, state.g, state.h]

/-- The sum of two states, word by word. -/
def add (first second : State) : State :=
  ⟨first.a + second.a, first.b + second.b, first.c + second.c, first.d + second.d,
    first.e + second.e, first.f + second.f, first.g + second.g, first.h + second.h⟩

end State

/-- A word rotated to the right by less than its width. -/
def rotateRight (word amount : UInt32) : UInt32 := (word >>> amount) ||| (word <<< (32 - amount))

/-- The bytes with their padding: a bit, zeros up to a full block, and the length in bits. -/
def padded (bytes : ByteArray) : Array UInt8 :=
  let zeros := (119 - bytes.size % 64) % 64
  let bits := 8 * bytes.size
  let length := (List.range 8).map fun index => UInt8.ofNat (bits >>> (8 * (7 - index)))
  bytes.data ++ #[0x80] ++ Array.replicate zeros 0 ++ length.toArray

/-- The word of four bytes from an index on. -/
def wordAt (bytes : Array UInt8) (index : Nat) : UInt32 :=
  (List.range 4).foldl
    (fun word offset => (word <<< 8) ||| (bytes[index + offset]?.getD 0).toUInt32) 0

/-- The message schedule: sixteen words of the block, then forty-eight that mix earlier ones. -/
def schedule (bytes : Array UInt8) (start : Nat) : Array UInt32 :=
  let block := ((List.range 16).map fun index => wordAt bytes (start + 4 * index)).toArray
  (List.range 48).foldl
    (fun words index =>
      let word (distance : Nat) : UInt32 := words[index + 16 - distance]?.getD 0
      let early := word 15
      let late := word 2
      let mixedEarly := rotateRight early 7 ^^^ rotateRight early 18 ^^^ (early >>> 3)
      let mixedLate := rotateRight late 17 ^^^ rotateRight late 19 ^^^ (late >>> 10)
      words.push (word 16 + mixedEarly + word 7 + mixedLate))
    block

/-- One round with a constant and a word of the schedule. -/
def round (state : State) (constant word : UInt32) : State :=
  let mixedE := rotateRight state.e 6 ^^^ rotateRight state.e 11 ^^^ rotateRight state.e 25
  let choice := (state.e &&& state.f) ^^^ (~~~state.e &&& state.g)
  let first := state.h + mixedE + choice + constant + word
  let mixedA := rotateRight state.a 2 ^^^ rotateRight state.a 13 ^^^ rotateRight state.a 22
  let majority := (state.a &&& state.b) ^^^ (state.a &&& state.c) ^^^ (state.b &&& state.c)
  ⟨first + mixedA + majority, state.a, state.b, state.c, state.d + first, state.e, state.f, state.g⟩

/-- Compresses the block that starts at an index into a state. -/
def compress (bytes : Array UInt8) (state : State) (start : Nat) : State :=
  let words := schedule bytes start
  let final := (List.range 64).foldl
    (fun current index =>
      round current (roundConstants[index]?.getD 0) (words[index]?.getD 0)) state
  state.add final

/-- The hash of some bytes. -/
def hash (bytes : ByteArray) : State :=
  let message := padded bytes
  (List.range (message.size / 64)).foldl
    (fun state block => compress message state (64 * block)) State.initial

/-- The hash of some bytes in hexadecimal. -/
def hexHash (bytes : ByteArray) : String :=
  String.join ((hash bytes).words.map fun word => String.ofList (Text.hexadecimal 8 word.toNat))

end DriverIdl.Sha256
