import TemplateExpr.Double.Arithmetic
import TemplateExpr.Text.Blank

/-!
# Reading numerals

The number that a text denotes when it is coerced to a number: a decimal numeral with optional sign,
fraction and exponent, a radix numeral after `0x`, `0o` or `0b`, or a signed `Infinity`.  Blanks around
the numeral do not count, an empty text is zero, and every other text is NaN.

`readDecimal?` reads decimal numerals by themselves; the tokens of expressions use it too.
-/

namespace TemplateExpr

/-- The value of a digit in a radix up to sixteen. -/
def digitValue? (radix : Nat) (c : Char) : Option Nat :=
  let value :=
    if '0' ≤ c ∧ c ≤ '9' then c.toNat - '0'.toNat
    else if 'a' ≤ c ∧ c ≤ 'f' then c.toNat - 'a'.toNat + 10
    else if 'A' ≤ c ∧ c ≤ 'F' then c.toNat - 'A'.toNat + 10
    else radix
  if value < radix then some value else none

theorem digitValue?_lt {radix : Nat} {c : Char} {d : Nat} (h : digitValue? radix c = some d) :
    d < radix := by
  obtain ⟨hlt, hd⟩ := Option.ite_none_right_eq_some.1 h
  rw [← Option.some.inj hd]
  exact hlt

def isDigitIn (radix : Nat) (c : Char) : Bool := (digitValue? radix c).isSome

def natOfDigits (digits : List Char) : Nat := Nat.ofDigitChars 10 digits 0

theorem natOfDigits_toDigits (n : Nat) : natOfDigits (Nat.toDigits 10 n) = n :=
  Nat.ofDigitChars_ten_toDigits

namespace Double

/-! ### Radix numerals -/

/-- Digits of a radix from the left, rounding after each; `none` at a character that is no digit. -/
def foldRadix (radix : Nat) : Double → List Char → Option Double
  | value, [] => some value
  | value, c :: rest =>
    match digitValue? radix c with
    | some d => foldRadix radix ((value.mul (ofNat radix)).add (ofNat d)) rest
    | none => none

/-- The number that digits of a radix denote; NaN if there are none or one is not a digit. -/
def readRadix (radix : Nat) (digits : List Char) : Double :=
  if digits.isEmpty then nan else (foldRadix radix zero digits).getD nan

/-- The radix that the letter after a leading zero announces. -/
def radixOfLetter? (c : Char) : Option Nat :=
  match c with
  | 'x' | 'X' => some 16
  | 'o' | 'O' => some 8
  | 'b' | 'B' => some 2
  | _ => none

/-! ### Decimal numerals -/

/-- A sign and what follows it. -/
def splitSign : List Char → Bool × List Char
  | '-' :: rest => (true, rest)
  | '+' :: rest => (false, rest)
  | cs => (false, cs)

/-- The exponent that ends a decimal numeral: nothing, or `e` and a signed whole number. -/
def readExponent? : List Char → Option Int
  | [] => some 0
  | c :: rest =>
    if c = 'e' ∨ c = 'E' then
      let (negative, digits) := splitSign rest
      if digits.isEmpty || !digits.all Char.isDigit then none
      else if negative then some (-(natOfDigits digits : Int)) else some (natOfDigits digits)
    else none

/-- A decimal numeral: a sign, digits with at most one point among or beside them, an exponent. -/
def readDecimal? (cs : List Char) : Option Double :=
  let (negative, body) := splitSign cs
  let whole := body.takeWhile Char.isDigit
  let afterWhole := body.dropWhile Char.isDigit
  let (fraction, tail) := match afterWhole with
    | '.' :: rest => (rest.takeWhile Char.isDigit, rest.dropWhile Char.isDigit)
    | _ => ([], afterWhole)
  if whole.isEmpty && fraction.isEmpty then none
  else
    (readExponent? tail).map fun exponent =>
      ofDecimal negative (natOfDigits (whole ++ fraction)) (exponent - fraction.length)

/-! ### Any numeral -/

/-- The number that a text without blanks around it denotes. -/
def readTrimmed (cs : List Char) : Double :=
  let decimal : Double :=
    if cs = "Infinity".toList ∨ cs = "+Infinity".toList then infinity false
    else if cs = "-Infinity".toList then infinity true
    else (readDecimal? cs).getD nan
  match cs with
  | [] => zero
  | '0' :: c :: rest =>
    match radixOfLetter? c with
    | some radix => readRadix radix rest
    | none => decimal
  | _ => decimal

def read (cs : List Char) : Double := readTrimmed (trimBlanks isNumeralBlank cs)

def ofText (s : String) : Double := read s.toList

end Double

end TemplateExpr
