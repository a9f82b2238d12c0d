/-!
# Binary floating point

`Binary64` is a 64-bit IEEE 754 number, held as its bits. `view` takes it apart: every finite
number is `mantissa * 2 ^ exponent`. `ofRatio?` goes back, to the nearest number.
-/

namespace PhaseSampling

structure Binary64 where
  bits : UInt64
  deriving DecidableEq, Repr, Inhabited

namespace Binary64

/-- What a number stands for. -/
inductive View where
  | nan
  | infinite (negative : Bool)
  | finite (negative : Bool) (mantissa : Nat) (exponent : Int)
  deriving DecidableEq, Repr

/-- The least exponent, that of the subnormal numbers. -/
def minExponent : Int := -1074

/-- The leading one of the mantissa of a normal number. -/
def leadingOne : Nat := 1 <<< 52

/-- The sign is the top bit, then 11 bits of exponent and 52 of fraction. The fraction of a normal
number has a leading one that is not stored. -/
def view (x : Binary64) : View :=
  let n := x.bits.toNat
  let negative := n >>> 63 == 1
  let exponent : Nat := n >>> 52 % 2048
  let fraction := n % leadingOne
  if exponent = 2047 then
    if fraction = 0 then .infinite negative else .nan
  else if exponent = 0 then .finite negative fraction minExponent
  else .finite negative (leadingOne + fraction) (minExponent + (exponent : Int) - 1)

def isFinite (x : Binary64) : Bool :=
  match x.view with
  | .finite .. => true
  | _ => false

/-- The size of a whole number; `none` when there is a fraction or the number is not finite. -/
def whole? (x : Binary64) : Option Nat :=
  match x.view with
  | .finite _ m e =>
    if 0 ≤ e then some (m <<< e.toNat)
    else if m % (1 <<< (-e).toNat) = 0 then some (m >>> (-e).toNat)
    else none
  | _ => none

/-- The quotient rounded to the nearest whole number, a half to the even one. -/
def roundDiv (num den : Nat) : Nat :=
  let q := num / den
  let r := 2 * (num % den)
  if r > den ∨ (r = den ∧ q % 2 = 1) then q + 1 else q

/-- A number from its sign, mantissa and exponent, when the exponent is not too large. A mantissa
of `2 ^ 53` carries into the exponent by itself. -/
def assemble? (negative : Bool) (mantissa : Nat) (exponent : Int) : Option Binary64 :=
  let biased := (exponent - minExponent).toNat
  let n := if mantissa < leadingOne then mantissa else biased * leadingOne + mantissa
  if n < 2047 * leadingOne then some ⟨(n + if negative then 1 <<< 63 else 0).toUInt64⟩ else none

/-- The number nearest to a quotient, a half to the even one; `none` beyond the finite range. -/
def ofRatio? (negative : Bool) (num den : Nat) : Option Binary64 :=
  let scaled (e : Int) : Nat × Nat := (num <<< (-e).toNat, den <<< e.toNat)
  let e : Int := max ((Nat.log2 num : Int) - Nat.log2 den - 53) minExponent
  let (n, d) := scaled e
  if n / d < 2 * leadingOne then assemble? negative (roundDiv n d) e
  else
    let (n, d) := scaled (e + 1)
    assemble? negative (roundDiv n d) (e + 1)

/-- The number nearest to `digits * 10 ^ exponent`; `none` beyond the finite range. Exponents far
outside the range are settled by the number of digits alone. -/
def ofDecimal? (negative : Bool) (digits : Nat) (exponent : Int) : Option Binary64 :=
  let top : Int := (Nat.toDigits 10 digits).length + exponent
  if digits = 0 ∨ top < -400 then assemble? negative 0 minExponent
  else if top > 400 then none
  else ofRatio? negative (digits * Nat.pow 10 exponent.toNat) (Nat.pow 10 (-exponent).toNat)

end Binary64

end PhaseSampling
