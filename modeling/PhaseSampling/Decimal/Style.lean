import PhaseSampling.Decimal.Shortest

/-!
# Decimal text of floating-point numbers

A `Style` says how the shortest digits of a number are laid out. Positional text puts the point
among the digits; scientific text has one digit before the point and a signed exponent.
-/

namespace PhaseSampling.Decimal

structure Style where
  tie : Tie
  /-- The decimal exponents of the leading digit, from and up to, that are written positionally;
  `none` for all of them. -/
  plainRange : Option (Int × Int)
  /-- What follows a number without a fraction in positional text. -/
  wholeEnd : String

/-- The digits with the point among them. -/
def positional (wholeEnd : String) (d : Decimal) : String :=
  let ds := Nat.toDigits 10 d.digits
  let point : Int := ds.length + d.exponent
  if 0 ≤ d.exponent then
    String.ofList (ds ++ List.replicate d.exponent.toNat '0') ++ wholeEnd
  else if 0 < point then
    String.ofList (ds.take point.toNat ++ '.' :: ds.drop point.toNat)
  else
    String.ofList ('0' :: '.' :: List.replicate (-point).toNat '0' ++ ds)

/-- The digits with the point after the first and an exponent with its sign. -/
def scientific (d : Decimal) : String :=
  let ds := Nat.toDigits 10 d.digits
  let e : Int := ds.length - 1 + d.exponent
  let rest := ds.drop 1
  String.ofList (ds.take 1 ++ (if rest = [] then [] else '.' :: rest)) ++
    (if e < 0 then s!"e-{e.natAbs}" else s!"e+{e.natAbs}")

/-- A positive decimal in a style. -/
def Style.layout (style : Style) (d : Decimal) : String :=
  let e : Int := (Nat.toDigits 10 d.digits).length - 1 + d.exponent
  match style.plainRange with
  | some (low, high) => if low ≤ e ∧ e < high then positional style.wholeEnd d else scientific d
  | none => positional style.wholeEnd d

/-- The size of a finite number in a style. -/
def Style.magnitude (style : Style) (mantissa : Nat) (exponent : Int) : String :=
  if mantissa = 0 then "0" ++ style.wholeEnd
  else style.layout (shortest style.tie mantissa exponent)

/-- A number in a style. -/
def Style.text (style : Style) (x : Binary64) : String :=
  match x.view with
  | .nan => "NaN"
  | .infinite negative => if negative then "-inf" else "inf"
  | .finite negative m e => (if negative then "-" else "") ++ style.magnitude m e

end PhaseSampling.Decimal
