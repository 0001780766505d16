import TemplateExpr.Double.Shortest

/-!
# Number texts

A finite double is written with the digits of its shortest decimal.  A `Layout` says where the
positional form ends and how the exponent form looks; three layouts are used: `Layout.template` for
rendered output, `Layout.json` for expression trees, and the purely positional text for messages.
-/

namespace TemplateExpr

/-- How digits are laid out.  The *point* of a decimal is the number of its digits before the decimal
point, zero or less when the number is below a tenth or so. -/
structure Layout where
  /-- The positional form needs a point above this bound. -/
  least : Int
  /-- The positional form needs a point up to this bound. -/
  most : Int
  /-- Whether whole numbers end in a point and a zero. -/
  wholeFraction : Bool
  /-- Whether a nonnegative exponent has a plus sign. -/
  plus : Bool
  /-- Which of two equally near shortest decimals is written. -/
  tie : Tie

/-- Rendered output is positional from a millionth up to twenty-one digits, and `1e+21` from there. -/
def Layout.template : Layout := ⟨-6, 21, false, true, .up⟩

/-- Expression trees are positional up to sixteen digits, and `1e16` from there; a number never
looks like an integer. -/
def Layout.json : Layout := ⟨-5, 16, true, false, .even⟩

namespace Decimal

/-- The number of digits before the decimal point. -/
def point (d : Decimal) : Int := d.text.length + d.exponent

/-- The positional form of digits with a point. -/
def positional (digits : List Char) (point : Int) (wholeFraction : Bool) : List Char :=
  match point with
  | .ofNat (n + 1) =>
    if digits.length ≤ n + 1 then
      digits ++ List.replicate (n + 1 - digits.length) '0' ++ (if wholeFraction then ['.', '0'] else [])
    else digits.take (n + 1) ++ '.' :: digits.drop (n + 1)
  | .ofNat 0 => '0' :: '.' :: digits
  | .negSucc n => '0' :: '.' :: (List.replicate (n + 1) '0' ++ digits)

/-- The exponent form of digits with a point: one digit, a fraction, a power of ten. -/
def scientific (digits : List Char) (point : Int) (plus : Bool) : List Char :=
  let power := point - 1
  let mantissa := match digits with
    | [] => []
    | [d] => [d]
    | d :: rest => d :: '.' :: rest
  let sign := if power < 0 then ['-'] else if plus then ['+'] else []
  mantissa ++ 'e' :: (sign ++ Nat.toDigits 10 power.natAbs)

/-- A decimal in a layout. -/
def layOut (style : Layout) (d : Decimal) : List Char :=
  if style.least < d.point ∧ d.point ≤ style.most then
    positional d.text d.point style.wholeFraction
  else scientific d.text d.point style.plus

end Decimal

namespace Double

/-- A minus sign for a negative number. -/
def signText (negative : Bool) : List Char := if negative then ['-'] else []

/-- The text of a number in rendered output; both zeros are `0`. -/
def textChars : Double → List Char
  | nan => "NaN".toList
  | signed negative rank _ =>
    if rank = infinityRank then signText negative ++ "Infinity".toList
    else if rank = 0 then ['0']
    else signText negative ++ (shortest .up rank).layOut .template

def text (x : Double) : String := String.ofList x.textChars

/-- The text of a number in a message: positional at any size. -/
def positionalText : Double → String
  | nan => "NaN"
  | signed negative rank _ => String.ofList <|
    signText negative ++
      (if rank = infinityRank then "inf".toList
       else if rank = 0 then ['0']
       else
         let d := shortest .up rank
         Decimal.positional d.text d.point false)

/-- The text of a finite number in an expression tree; NaN and infinities have none. -/
def jsonText? : Double → Option (List Char)
  | nan => none
  | signed negative rank _ =>
    if rank = infinityRank then none
    else if rank = 0 then some (signText negative ++ "0.0".toList)
    else some (signText negative ++ (shortest .even rank).layOut .json)

end Double

end TemplateExpr
