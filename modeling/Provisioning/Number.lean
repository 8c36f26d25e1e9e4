/-
# `Provisioning.Number` — whole numbers and binary fractions

A number is whole, of any size, or of the double format, which keeps 53
significant binary digits.  Every magnitude of that format is a whole number
of units of 2^-1074, so numbers of both kinds are compared exactly, as whole
numbers of units.

A decimal numeral reads as the nearest number of the format, of two equally
near the one with an even last digit.  A number is written with the fewest
decimal digits that read back as it, of two such numerals the nearer.

    10^-4 ≤ x < 10^16     positional, with a point: 0.001, 100.0
    otherwise             with a signed power of ten: 1e-05, 1.5e+16

The format has a largest number; a numeral above it keeps its leading binary
digits here.
-/
namespace Provisioning

/-- A number of the double format: its sign, and its magnitude in units of 2^-1074. -/
structure Double where
  negative : Bool
  units : Nat
  deriving DecidableEq, Repr

namespace Double

/-- One, in units. -/
def one : Nat := 1 <<< 1074

/-- A power of ten. -/
def tenTo (k : Nat) : Nat := Nat.pow 10 k

/-- A quotient, to the nearest whole number with at most 53 significant binary digits; a quotient
halfway between two goes to the even one. -/
def rounded (num den : Nat) : Nat :=
  let extra := (num / den).log2 - 52
  let step := den <<< extra
  let steps := num / step
  let rest := 2 * (num % step)
  (if step < rest || (rest == step && steps % 2 == 1) then steps + 1 else steps) <<< extra

/-- The number that `digits * 10^power` reads as. -/
def ofDecimal (negative : Bool) (digits : Nat) (power : Int) : Double where
  negative := negative
  units :=
    match power with
    | .ofNat k => rounded (digits * tenTo k * one) 1
    | .negSucc k => rounded (digits * one) (tenTo (k + 1))

/-- The magnitude on the grid of a power of ten, rounded down. -/
def floorAt (units : Nat) : Int → Nat
  | .ofNat k => units / (one * tenTo k)
  | .negSucc k => units * tenTo (k + 1) / one

/-- The magnitude is nearer to the grid point above it than to the one below, or halfway and the one
below is odd. -/
def isNearerAbove (units below : Nat) (power : Int) : Bool :=
  let order :=
    match power with
    | .ofNat k => compare (2 * units) ((2 * below + 1) * (one * tenTo k))
    | .negSucc k => compare (2 * units * tenTo (k + 1)) ((2 * below + 1) * one)
  order == .gt || (order == .eq && below % 2 == 1)

/-- The digits on the grid of a power of ten that read back as a magnitude, if there are any. -/
def digitsAt? (units : Nat) (power : Int) : Option Nat :=
  let below := floorAt units power
  let readsBack (digits : Nat) : Bool := (ofDecimal false digits power).units == units
  match readsBack below, readsBack (below + 1) with
  | true, true => some (if isNearerAbove units below power then below + 1 else below)
  | true, false => some below
  | false, true => some (below + 1)
  | false, false => none

/-- The power of ten of the leading digit of a magnitude that is not zero. -/
def leadingPower (units : Nat) : Int :=
  if one ≤ units then ((Nat.toDigits 10 (units / one)).length : Int) - 1
  else -((Nat.toDigits 10 ((one - 1) / units)).length : Int)

/-- The fewest digits that read back as a magnitude, and the power of ten of the last of them.  No
magnitude needs more than seventeen; without digits that read back, all digits are given. -/
def shortest (units : Nat) : Nat × Int :=
  let top := leadingPower units
  ((List.range 17).findSome? fun (n : Nat) =>
    (digitsAt? units (top - n)).map fun digits => (digits, top - (n : Int))).getD
    (units * Nat.pow 5 1074, -1074)

/-- Digits without the zeros at their end. -/
def withoutEndZeros (digits : List Char) : List Char :=
  (digits.reverse.dropWhile (· == '0')).reverse

/-- Digits with a point after the first `point` of them, filled up with zeros on either side. -/
def positional (digits : List Char) (point : Int) : List Char :=
  match point with
  | .ofNat 0 => '0' :: '.' :: digits
  | .ofNat k =>
    digits.take k ++ List.replicate (k - digits.length) '0' ++
      '.' :: (if digits.length ≤ k then ['0'] else digits.drop k)
  | .negSucc k => '0' :: '.' :: List.replicate (k + 1) '0' ++ digits

/-- Digits with a point after the first, and a power of ten of at least two digits. -/
def scientific (digits : List Char) (power : Int) : List Char :=
  let size := Nat.toDigits 10 power.natAbs
  let mantissa :=
    match digits with
    | d :: e :: rest => d :: '.' :: e :: rest
    | ds => ds
  mantissa ++ 'e' :: (if power < 0 then '-' else '+') ::
    (List.replicate (2 - size.length) '0' ++ size)

/-- The text of a magnitude. -/
def magnitudeText (units : Nat) : List Char :=
  if units = 0 then ['0', '.', '0']
  else
    let numeral := shortest units
    let all := Nat.toDigits 10 numeral.1
    let point := (all.length : Int) + numeral.2
    let digits := withoutEndZeros all
    if -4 < point && point ≤ 16 then positional digits point else scientific digits (point - 1)

/-- The text of a number. -/
protected def toString (x : Double) : String :=
  String.ofList ((if x.negative then ['-'] else []) ++ magnitudeText x.units)

/-- A number, in units. -/
def inUnits (x : Double) : Int := if x.negative then -(x.units : Int) else x.units

/-- A number without a fractional part. -/
def isWhole (x : Double) : Bool := x.units % one == 0

end Double

/-- A number. -/
inductive Number where
  | whole (n : Int)
  | fraction (x : Double)
  deriving DecidableEq, Repr

namespace Number

instance (n : Nat) : OfNat Number n := ⟨.whole n⟩
instance : Coe Nat Number := ⟨fun n => .whole n⟩

/-- The text of a number. -/
protected def toString : Number → String
  | .whole n => toString n
  | .fraction x => x.toString

/-- A number in units of 2^-1074: what numbers of either kind are compared by. -/
def inUnits : Number → Int
  | .whole n => n * Double.one
  | .fraction x => x.inUnits

end Number

end Provisioning
