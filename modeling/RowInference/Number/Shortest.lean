import RowInference.Number.Double

/-! # Shortest decimal text of a double

A finite double is written with the fewest digits that read back as the same double; of several such decimals
the nearest one is taken. The test uses exact fractions: a decimal reads back iff it lies between the midpoints
to the neighbouring doubles, ends included when the mantissa is even.

Numbers from `1e-5` up to `1e16` are written in positional notation with a decimal point, others with an
exponent.
-/

namespace RowInference.Double

def digitCount (n : Nat) : Nat := (Nat.toDigits 10 n).length

/-- The exponent of the largest power of ten that is not above a positive fraction. -/
def floorLog10 (num den : Nat) : Int :=
  if num ≥ den then (digitCount (num / den) : Int) - 1 else -(digitCount ((den - 1) / num) : Int)

/-- The midpoints to the two neighbours of `mantissa · 2 ^ power`, as multiples of `2 ^ (power - 2)`. The lower
neighbour of a power of two is twice as near. -/
def midpoints (mantissa : Nat) (power : Int) : Nat × Nat :=
  (4 * mantissa - (if mantissa = leadingBit ∧ power > -1074 then 1 else 2), 4 * mantissa + 2)

/-- Whether `digits · 10 ^ exponent` reads back as `mantissa · 2 ^ power`. -/
def readsBack (mantissa : Nat) (power : Int) (digits : Nat) (exponent : Int) : Bool :=
  let (lower, upper) := midpoints mantissa power
  let scaleUp (n : Nat) (twos tens : Int) : Nat := n * Nat.pow 2 twos.toNat * Nat.pow 10 tens.toNat
  let decimal := scaleUp digits (2 - power) exponent
  let low := scaleUp lower (power - 2) (-exponent)
  let high := scaleUp upper (power - 2) (-exponent)
  if mantissa % 2 = 0 then low ≤ decimal && decimal ≤ high else low < decimal && decimal < high

/-- The shortest decimal among those with at least `count` digits. -/
def shortestFrom (mantissa : Nat) (power : Int) (num den : Nat) : Nat → Nat → Nat × Int
  | 0, count => (num * Nat.pow 10 count / den, -count)
  | fuel + 1, count =>
    let exponent := floorLog10 num den - count + 1
    let (left, right) :=
      if exponent ≥ 0 then (num, den * Nat.pow 10 exponent.toNat) else (num * Nat.pow 10 exponent.natAbs, den)
    let below := left / right
    let belowFits := readsBack mantissa power below exponent
    let aboveFits := readsBack mantissa power (below + 1) exponent
    let aboveNearer := 2 * (left % right) > right
    if aboveFits && (aboveNearer || !belowFits) then (below + 1, exponent)
    else if belowFits then (below, exponent)
    else shortestFrom mantissa power num den fuel (count + 1)

def dropZeros : Nat → Nat → Int → Nat × Int
  | 0, digits, exponent => (digits, exponent)
  | fuel + 1, digits, exponent =>
    if digits % 10 = 0 then dropZeros fuel (digits / 10) (exponent + 1) else (digits, exponent)

/-- The digits and exponent of the shortest decimal of a positive finite double. -/
def shortest (x : Double) : Nat × Int :=
  let (mantissa, power) := x.parts
  let (num, den) := shifted mantissa 1 power
  let (digits, exponent) := shortestFrom mantissa power num den 18 1
  dropZeros 20 digits exponent

/-- Write digits with the decimal point after `point` of them. -/
def writeDecimal (digits : List Char) (point : Int) : List Char :=
  let count : Int := digits.length
  if count ≤ point ∧ point ≤ 16 then
    digits ++ List.replicate (point - count).toNat '0' ++ ['.', '0']
  else if 0 < point ∧ point ≤ 16 then
    digits.take point.toNat ++ '.' :: digits.drop point.toNat
  else if -5 < point ∧ point ≤ 0 then
    '0' :: '.' :: List.replicate point.natAbs '0' ++ digits
  else
    let mantissa := match digits with
      | [digit] => [digit]
      | digit :: rest => digit :: '.' :: rest
      | [] => []
    mantissa ++ 'e' :: (toString (point - 1)).toList

/-- The text of a finite double; `none` for infinities and undefined numbers. -/
def text? (x : Double) : Option String :=
  let size := x.bits.toNat % signBit
  let sign := if x.bits.toNat ≥ signBit then ['-'] else []
  if size ≥ infinityBits then none
  else if size = 0 then some (String.ofList (sign ++ ['0', '.', '0']))
  else
    let (digits, exponent) := shortest x
    let digits := Nat.toDigits 10 digits
    some (String.ofList (sign ++ writeDecimal digits (digits.length + exponent)))

end RowInference.Double
