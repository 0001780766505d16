import TemplateExpr.Double.Rounding

/-!
# Arithmetic on doubles

Each operation treats NaN, infinities and zeros first; otherwise it computes the exact result in
units and rounds once.  The remainder is exact: it has the sign of the dividend and is smaller than
the divisor.
-/

namespace TemplateExpr

namespace Double

/-- The sum; an exact zero is negative only if both summands are. -/
def add (x y : Double) : Double :=
  match x, y with
  | nan, _ => nan
  | _, nan => nan
  | signed .., signed .. =>
    if !x.isFinite then
      if !y.isFinite && x.isNegative != y.isNegative then nan else x
    else if !y.isFinite then y
    else
      let total := x.signedUnits + y.signedUnits
      if total = 0 then ofRank (x.isNegative && y.isNegative) 0
      else ofRatio (total < 0) total.natAbs 1

def sub (x y : Double) : Double := add x y.neg

def mul (x y : Double) : Double :=
  match x, y with
  | nan, _ => nan
  | _, nan => nan
  | signed .., signed .. =>
    let negative := x.isNegative != y.isNegative
    if !x.isFinite || !y.isFinite then
      if x.isZero || y.isZero then nan else infinity negative
    else ofRatio negative (x.units * y.units) unitsPerOne

def div (x y : Double) : Double :=
  match x, y with
  | nan, _ => nan
  | _, nan => nan
  | signed .., signed .. =>
    let negative := x.isNegative != y.isNegative
    if !x.isFinite then
      if y.isFinite then infinity negative else nan
    else if !y.isFinite then ofRank negative 0
    else if y.isZero then
      if x.isZero then nan else infinity negative
    else ofRatio negative (x.units * unitsPerOne) y.units

/-- What is left of `x` after taking `y` away a whole number of times, toward zero. -/
def rem (x y : Double) : Double :=
  match x, y with
  | nan, _ => nan
  | _, nan => nan
  | signed .., signed .. =>
    if !x.isFinite || y.isZero then nan
    else if !y.isFinite then x
    else ofRatio x.isNegative (x.units % y.units) 1

/-- The whole number that a double equals, if there is one. -/
def toInt? (x : Double) : Option Int :=
  if x.isFinite && x.units % unitsPerOne == 0 then
    some (if x.isNegative then -((x.units / unitsPerOne : Nat) : Int) else (x.units / unitsPerOne : Nat))
  else none

end Double

end TemplateExpr
