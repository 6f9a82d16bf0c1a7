/-! # Double-precision numbers

A number literal is carried through as the 64 bits of its IEEE 754 double, and no arithmetic is done on it
except when a decimal text is read. Reading works on exact fractions of natural numbers and rounds to the
nearest double, ties to even, so it does not depend on the machine.

`Double.ofDecimal?` reads `significand · 10 ^ exponent` in at most a few rounded steps: the significand is
rounded first, then multiplied or divided by a rounded power of ten. The result can therefore differ from
the nearest double in its last bits.
-/

namespace RowInference

structure Double where
  /-- Sign, exponent and fraction. -/
  bits : UInt64
deriving DecidableEq, Repr, Inhabited

namespace Double

/-- Divide and round to the nearest integer, ties to even. -/
def roundDiv (num den : Nat) : Nat :=
  let quotient := num / den
  let rest := num % den
  if 2 * rest > den || (2 * rest == den && quotient % 2 == 1) then quotient + 1 else quotient

/-- A fraction times a power of two. -/
def shifted (num den : Nat) (power : Int) : Nat × Nat :=
  if power ≥ 0 then (num * Nat.pow 2 power.toNat, den) else (num, den * Nat.pow 2 (-power).toNat)

/-- The exponent of the largest power of two that is not above a positive fraction. -/
def floorLog2 (num den : Nat) : Int :=
  let estimate : Int := (num.log2 : Int) - (den.log2 : Int)
  let (left, right) := shifted num den (-estimate)
  if left ≥ right then estimate else estimate - 1

/-- The bit in front of the fraction, which is not stored. -/
def leadingBit : Nat := 0x10000000000000

def signBit : Nat := 0x8000000000000000

def infinityBits : Nat := 0x7FF0000000000000

/-- The double nearest to a fraction; one too large becomes infinity. -/
def ofRatio (num den : Nat) : Double :=
  if num = 0 ∨ den = 0 then ⟨0⟩
  else
    let exponent := max (floorLog2 num den - 52) (-1074)
    let (left, right) := shifted num den (-exponent)
    let mantissa := roundDiv left right
    let bits :=
      if mantissa < leadingBit then mantissa
      else (exponent + 1074).toNat * leadingBit + mantissa
    ⟨(min bits infinityBits).toUInt64⟩

def ofNat (n : Nat) : Double := ofRatio n 1

def isInfinite (x : Double) : Bool := x.bits.toNat % signBit == infinityBits

def isZero (x : Double) : Bool := x.bits.toNat % signBit == 0

def neg (x : Double) : Double := ⟨x.bits ^^^ 0x8000000000000000⟩

def ofInt (n : Int) : Double := if n < 0 then (ofNat n.natAbs).neg else ofNat n.natAbs

/-- The integer and the power of two whose product is the size of a finite double. -/
def parts (x : Double) : Nat × Int :=
  let exponent : Nat := x.bits.toNat / leadingBit % 0x800
  let fraction : Nat := x.bits.toNat % leadingBit
  if exponent = 0 then (fraction, -1074) else (leadingBit + fraction, (exponent : Int) - 1075)

/-- The rounded product of two finite doubles that are not negative. -/
def mul (x y : Double) : Double :=
  let (left, leftPower) := x.parts
  let (right, rightPower) := y.parts
  let (num, den) := shifted (left * right) 1 (leftPower + rightPower)
  ofRatio num den

/-- The rounded quotient of two finite doubles that are not negative. -/
def div (x y : Double) : Double :=
  let (left, leftPower) := x.parts
  let (right, rightPower) := y.parts
  let (num, den) := shifted left right (leftPower - rightPower)
  ofRatio num den

/-- The double nearest to a power of ten. -/
def powerOfTen (power : Nat) : Double := ofNat (Nat.pow 10 power)

/-- Multiply by a power of ten; `none` if the result is too large for a double. -/
def scale? (x : Double) (exponent : Int) : Option Double :=
  if -308 ≤ exponent ∧ exponent ≤ 308 then
    if exponent ≥ 0 then
      let product := x.mul (powerOfTen exponent.toNat)
      if product.isInfinite then none else some product
    else some (x.div (powerOfTen exponent.natAbs))
  else if x.isZero then some x
  else if exponent ≥ 0 then none
  else scale? (x.div (powerOfTen 308)) (exponent + 308)
termination_by exponent.natAbs
decreasing_by omega

/-- Read a decimal; `none` if it is too large for a double. -/
def ofDecimal? (significand : Nat) (exponent : Int) : Option Double :=
  (ofNat significand).scale? exponent

end Double

end RowInference
