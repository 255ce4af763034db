/-!
# Shortest decimal text of a binary float

A float is a mantissa times a power of two, and every real number near enough reads back as it.  Its
shortest text is the one with the fewest digits that still reads back; of two such texts the nearer
one is taken.  The digits are found on decimal grids in exact arithmetic.
-/

namespace DriverIdl.Shortest

/-- Field widths of a binary interchange format. -/
structure Format where
  fractionBits : Nat
  exponentBits : Nat

/-- The format with 32 bits. -/
def Format.single : Format := ⟨23, 8⟩

/-- The format with 64 bits. -/
def Format.double : Format := ⟨52, 11⟩

/-- What a bit pattern denotes, its sign aside.  `finite` is `mantissa * 2 ^ exponent`; its neighbour
below is half as far as the one above if `narrowBelow` holds. -/
inductive Magnitude where
  | nan
  | infinite
  | zero
  | finite (mantissa : Nat) (exponent : Int) (narrowBelow : Bool)

namespace Format

/-- Whether the sign bit is set. -/
def isNegative (format : Format) (bits : Nat) : Bool :=
  bits.testBit (format.fractionBits + format.exponentBits)

/-- The bits below the sign. -/
def unsignedBits (format : Format) (bits : Nat) : Nat :=
  bits % Nat.pow 2 (format.fractionBits + format.exponentBits)

/-- Reads a bit pattern. -/
def magnitude (format : Format) (bits : Nat) : Magnitude :=
  let fraction := bits % Nat.pow 2 format.fractionBits
  let exponent := bits / Nat.pow 2 format.fractionBits % Nat.pow 2 format.exponentBits
  let bias : Int := Nat.pow 2 (format.exponentBits - 1) - 1 + format.fractionBits
  if exponent == Nat.pow 2 format.exponentBits - 1 then
    if fraction == 0 then .infinite else .nan
  else if exponent == 0 then
    if fraction == 0 then .zero else .finite fraction (1 - bias) false
  else
    .finite (Nat.pow 2 format.fractionBits + fraction) (exponent - bias)
      (fraction == 0 && exponent != 1)

/-- Equality of the numbers that two bit patterns denote: a NaN equals nothing, the two zeros are
equal. -/
def equal (format : Format) (left right : Nat) : Bool :=
  match format.magnitude left, format.magnitude right with
  | .nan, _ => false
  | _, .nan => false
  | .zero, .zero => true
  | _, _ => left == right

end Format

/-- A decimal `digits * 10 ^ exponent`. -/
structure Decimal where
  digits : Nat
  exponent : Int

/-- Numerator and denominator of `count * base ^ power`. -/
def scaled (base count : Nat) (power : Int) : Nat × Nat :=
  match power with
  | .ofNat up => (count * base.pow up, 1)
  | .negSucc down => (count, base.pow (down + 1))

/-- The exponent of the leading decimal digit of a positive fraction. -/
def leadingExponent (numerator denominator : Nat) : Int :=
  if denominator ≤ numerator then
    Int.ofNat ((Nat.toDigits 10 (numerator / denominator)).length - 1)
  else
    match (List.range 400).find? fun down => denominator ≤ numerator * Nat.pow 10 (down + 1) with
    | some down => -(Int.ofNat (down + 1))
    | none => 0

/-- Orders `left.1 / left.2` and `right.1 / right.2`. -/
def compareFractions (left right : Nat × Nat) : Ordering :=
  compare (left.1 * right.2) (right.1 * left.2)

/-- The nearest decimal with `count` digits that reads back as the float, if there is one; an exact
tie goes up. -/
def onGrid (mantissa : Nat) (exponent : Int) (narrowBelow : Bool) (count : Nat) : Option Decimal :=
  -- all three are held in quarters of the mantissa's unit
  let value := scaled 2 (4 * mantissa) (exponent - 2)
  let low := scaled 2 (4 * mantissa - if narrowBelow then 1 else 2) (exponent - 2)
  let high := scaled 2 (4 * mantissa + 2) (exponent - 2)
  let step := leadingExponent value.1 value.2 - Int.ofNat (count - 1)
  let unit := scaled 10 1 step
  let below := value.1 * unit.2 / (value.2 * unit.1)
  let point (digits : Nat) : Nat × Nat := (digits * unit.1, unit.2)
  let inside (digits : Nat) : Bool :=
    let above := compareFractions low (point digits)
    let under := compareFractions (point digits) high
    (above == .lt || (above == .eq && mantissa % 2 == 0)) &&
      (under == .lt || (under == .eq && mantissa % 2 == 0))
  -- twice the value against the sum of its two neighbours
  let upIsNearer :=
    compareFractions (2 * value.1, value.2) ((2 * below + 1) * unit.1, unit.2) != .lt
  match inside below, inside (below + 1) with
  | true, true => some ⟨if upIsNearer then below + 1 else below, step⟩
  | true, false => some ⟨below, step⟩
  | false, true => some ⟨below + 1, step⟩
  | false, false => none

/-- The shortest decimal that reads back; seventeen digits always do. -/
def decimal (mantissa : Nat) (exponent : Int) (narrowBelow : Bool) : Decimal :=
  ((List.range 17).findSome? fun less => onGrid mantissa exponent narrowBelow (less + 1)).getD ⟨0, 0⟩

/-- The significant digits of a decimal, without zeros at the end. -/
def significant (digits : Nat) : List Char :=
  match ((Nat.toDigits 10 digits).reverse.dropWhile (· == '0')).reverse with
  | [] => ['0']
  | kept => kept

/-- Writes a decimal positionally when its leading digit stands between the fourth place after the
point and the sixteenth before it, and with an exponent otherwise. -/
def Decimal.text (number : Decimal) : List Char :=
  let kept := significant number.digits
  let leading := number.exponent + Int.ofNat ((Nat.toDigits 10 number.digits).length - 1)
  if leading < -4 || 16 ≤ leading then
    let fraction := kept.drop 1
    kept.take 1 ++ (if fraction.isEmpty then [] else '.' :: fraction) ++ 'e' :: (toString leading).toList
  else
    match leading with
    | .negSucc down => ['0', '.'] ++ List.replicate down '0' ++ kept
    | .ofNat up =>
      let whole := kept.take (up + 1)
      let fraction := kept.drop (up + 1)
      whole ++ List.replicate (up + 1 - whole.length) '0' ++
        '.' :: (if fraction.isEmpty then ['0'] else fraction)

/-- The text of a bit pattern. -/
def Format.text (format : Format) (bits : Nat) : String :=
  let sign := if format.isNegative bits then "-" else ""
  match format.magnitude bits with
  | .nan => "NaN"
  | .infinite => sign ++ "inf"
  | .zero => sign ++ "0.0"
  | .finite mantissa exponent narrowBelow =>
    sign ++ String.ofList (decimal mantissa exponent narrowBelow).text

end DriverIdl.Shortest
