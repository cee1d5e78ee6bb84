/-!
Floating-point numbers as text. The fewest digits that read back to a number are written, with a
point from 10⁻⁴ up to 10¹⁶ and with an exponent outside that range.
-/
namespace DeriveBounds.Text

/-- A positive number and the bounds of the reals that round to it, as numerators over one
denominator. The bounds themselves belong to it where `closed`. -/
structure Rounding where
  low : Nat
  value : Nat
  high : Nat
  denominator : Nat
  closed : Bool

namespace Rounding

/-- The gap between two numbers as a power of two, biased; the lowest two exponents share theirs. -/
private def gapOf (exponent : Nat) : Nat := max exponent 1

/-- The number with some exponent and fraction bits. The bounds lie halfway to its neighbours, of
which the lower one is nearer at a power of two. They round to the even one of the two. -/
def ofBits (exponent fraction : Nat) : Rounding :=
  let mantissa := if exponent = 0 then fraction else fraction + 0x10000000000000
  let below := if fraction = 0 ∧ 1 < exponent then 1 else 2
  let scale := 1 <<< (gapOf exponent - 1077)
  { low := (4 * mantissa - below) * scale
    value := 4 * mantissa * scale
    high := (4 * mantissa + 2) * scale
    denominator := 1 <<< (1077 - gapOf exponent)
    closed := mantissa % 2 = 0 }

variable (rounding : Rounding)

/-- Whether `digits * 10 ^ exponent` rounds to the number. -/
def contains (digits : Nat) (exponent : Int) : Bool :=
  let candidate := digits * Nat.pow 10 exponent.toNat * rounding.denominator
  let low := rounding.low * Nat.pow 10 (-exponent).toNat
  let high := rounding.high * Nat.pow 10 (-exponent).toNat
  if rounding.closed then low ≤ candidate ∧ candidate ≤ high else low < candidate ∧ candidate < high

private def countDigits (n : Nat) : Nat := (toString n).length

/-- The least power of ten above the number. -/
def magnitude : Int :=
  if rounding.denominator ≤ rounding.value then countDigits (rounding.value / rounding.denominator)
  else 1 - countDigits ((rounding.denominator - 1) / rounding.value)

/-- How often `10 ^ exponent` fits into the number, and what remains of it, over a denominator. -/
def divide (exponent : Int) : Nat × Nat × Nat :=
  let whole := rounding.value * Nat.pow 10 (-exponent).toNat
  let denominator := rounding.denominator * Nat.pow 10 exponent.toNat
  (whole / denominator, whole % denominator, denominator)

/-- The multiple of `10 ^ exponent` next to the number, the even one of two. -/
def nearest (exponent : Int) : Nat :=
  let (below, rest, denominator) := rounding.divide exponent
  if 2 * rest < denominator then below
  else if denominator < 2 * rest then below + 1
  else below + below % 2

/-- The multiple of `10 ^ exponent` that rounds to the number, the nearest of several. -/
def multiple? (exponent : Int) : Option Nat :=
  let (below, _, _) := rounding.divide exponent
  match rounding.contains below exponent, rounding.contains (below + 1) exponent with
  | true, true => some (rounding.nearest exponent)
  | true, false => some below
  | false, true => some (below + 1)
  | false, false => none

/-- The fewest digits that read back to the number, with the exponent of the last one. The nearest
17 digits always do. -/
def shortest : Nat × Int :=
  let found := (List.range 16).findSome? fun (count : Nat) =>
    let exponent := rounding.magnitude - (count + 1 : Nat)
    (rounding.multiple? exponent).map fun digits => (digits, exponent)
  found.getD (rounding.nearest (rounding.magnitude - 17), rounding.magnitude - 17)

end Rounding

private def withoutTrailingZeros (digits : List Char) : List Char :=
  (digits.reverse.dropWhile (· = '0')).reverse

private def exponentText (exponent : Int) : String :=
  let digits := toString exponent.natAbs
  (if exponent < 0 then "e-" else "e+") ++ (if digits.length < 2 then "0" ++ digits else digits)

/-- Digits that begin behind a point and are moved by a power of ten. -/
def pointed (digits : List Char) (point : Int) : String :=
  if point ≤ -4 || 16 < point then
    let fraction := digits.drop 1
    String.ofList (digits.take 1) ++
      (if fraction.isEmpty then "" else "." ++ String.ofList fraction) ++ exponentText (point - 1)
  else if point ≤ 0 then
    "0." ++ String.ofList (List.replicate point.natAbs '0' ++ digits)
  else
    let whole := digits.take point.toNat
    let fraction := digits.drop point.toNat
    String.ofList (whole ++ List.replicate (point.toNat - whole.length) '0') ++ "." ++
      (if fraction.isEmpty then "0" else String.ofList fraction)

/-- The text of a finite number without its sign. -/
def magnitudeText (exponent fraction : Nat) : String :=
  if exponent = 0 ∧ fraction = 0 then "0.0"
  else
    let (digits, last) := (Rounding.ofBits exponent fraction).shortest
    let all := (toString digits).toList
    pointed (withoutTrailingZeros all) (all.length + last)

/-- A number as text. Formats differ in what they call infinity and what is not a number. -/
def decimal (infinity notANumber : String) (number : Float) : String :=
  let bits := number.toBits
  let exponent := ((bits >>> 52) &&& 0x7ff).toNat
  let fraction := (bits &&& 0xfffffffffffff).toNat
  let sign := if bits >>> 63 = 0 then "" else "-"
  if exponent < 0x7ff then sign ++ magnitudeText exponent fraction
  else if fraction = 0 then sign ++ infinity
  else notANumber

end DeriveBounds.Text
