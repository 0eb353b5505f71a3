/-!
Decimal numbers and their text. The text always shows that the number is a decimal: it has a point
or an exponent.
-/
namespace BlockNames

/-- The number `digits · 10 ^ exponent` with a sign. The sign stands apart from the digits. -/
structure Decimal where
  negative : Bool
  digits : Nat
  exponent : Int
deriving DecidableEq

namespace Decimal

/-- Moves the trailing zeros of the digits into the exponent. -/
def trimZeros (digits : Nat) (exponent : Int) : Nat × Int :=
  if digits = 0 then (0, 0)
  else if digits % 10 = 0 then trimZeros (digits / 10) (exponent + 1)
  else (digits, exponent)
termination_by digits

def ofDigits (negative : Bool) (digits : Nat) (exponent : Int) : Decimal :=
  let trimmed := trimZeros digits exponent
  ⟨negative, trimmed.1, trimmed.2⟩

private def zeros (count : Int) : List Char :=
  List.replicate count.toNat '0'

/-- The text of the digits alone. `point` counts the digits that stand before the decimal point.
From four zeros after the point up to sixteen digits before it the number is written out; any other
has its first digit before the point and an exponent. -/
private def magnitudeText (digits : List Char) (point : Int) : List Char :=
  let length : Int := digits.length
  if length ≤ point ∧ point ≤ 16 then
    digits ++ zeros (point - length) ++ ['.', '0']
  else if 0 < point ∧ point ≤ 16 then
    digits.take point.toNat ++ '.' :: digits.drop point.toNat
  else if -5 < point ∧ point ≤ 0 then
    '0' :: '.' :: zeros (-point) ++ digits
  else
    let fraction := if length = 1 then [] else '.' :: digits.drop 1
    let sign := if 0 < point then '+' else '-'
    digits.take 1 ++ fraction ++ 'e' :: sign :: Nat.toDigits 10 (point - 1).natAbs

def text (number : Decimal) : String :=
  let digits := Nat.toDigits 10 number.digits
  let magnitude :=
    if number.digits = 0 then ['0', '.', '0']
    else magnitudeText digits (digits.length + number.exponent)
  String.ofList (if number.negative then '-' :: magnitude else magnitude)

end Decimal

end BlockNames
