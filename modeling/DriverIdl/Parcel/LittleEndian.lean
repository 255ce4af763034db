/-!
# Little-endian numbers

A number of fixed width is stored as its base-256 digits, least significant first.
-/

namespace DriverIdl.LittleEndian

/-- The lowest `width` base-256 digits of a number, least significant first. -/
def encode : Nat → Nat → List UInt8
  | 0, _ => []
  | width + 1, number => UInt8.ofNat number :: encode width (number / 256)

/-- The number with the given base-256 digits, least significant first. -/
def decode : List UInt8 → Nat
  | [] => 0
  | byte :: rest => byte.toNat + 256 * decode rest

@[simp]
theorem length_encode (width number : Nat) : (encode width number).length = width := by
  induction width generalizing number with
  | zero => rfl
  | succ width ih => simp [encode, ih]

/-- Storing keeps what fits the width. -/
theorem decode_encode (width number : Nat) :
    decode (encode width number) = number % Nat.pow 256 width := by
  induction width generalizing number with
  | zero => simp [encode, decode, Nat.mod_one]
  | succ width ih =>
    have split : number % Nat.pow 256 (width + 1) =
        number % 256 + 256 * (number / 256 % Nat.pow 256 width) := by
      rw [Nat.pow_eq, Nat.pow_succ', Nat.mod_mul, Nat.pow_eq]
    rw [encode, decode, ih, UInt8.toNat_ofNat', split]

/-- Every run of bytes is the stored form of the number it denotes. -/
theorem encode_decode (bytes : List UInt8) : encode bytes.length (decode bytes) = bytes := by
  induction bytes with
  | nil => rfl
  | cons byte rest ih =>
    have small : byte.toNat < 256 := byte.toNat_lt
    have quotient : (byte.toNat + 256 * decode rest) / 256 = decode rest := by omega
    rw [List.length_cons, encode, decode, quotient, ih]
    congr 1
    apply UInt8.toNat_inj.1
    rw [UInt8.toNat_ofNat']
    omega

end DriverIdl.LittleEndian
