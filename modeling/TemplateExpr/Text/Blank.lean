/-!
# Blank characters

Three sets of blanks are in use.  `isBlank` is the White_Space property; around a numeral the byte
order mark counts as well; and between the tokens of an expression blanks are the line terminators,
three controls, the byte order mark and the space separators, but not U+0085.
-/

namespace TemplateExpr

/-- The White_Space property. -/
def isBlank (c : Char) : Bool :=
  let n := c.toNat
  (0x09 ≤ n && n ≤ 0x0d) || n == 0x20 || n == 0x85 || n == 0xa0 || n == 0x1680
    || (0x2000 ≤ n && n ≤ 0x200a) || n == 0x2028 || n == 0x2029 || n == 0x202f || n == 0x205f
    || n == 0x3000

/-- A blank around a numeral: White_Space or the byte order mark. -/
def isNumeralBlank (c : Char) : Bool := isBlank c || c.toNat == 0xfeff

/-- A character that ends a line of an expression. -/
def isLineEnd (c : Char) : Bool :=
  c == '\n' || c == '\r' || c.toNat == 0x2028 || c.toNat == 0x2029

/-- A blank between the tokens of an expression, apart from the line ends. -/
def isSpace (c : Char) : Bool :=
  let n := c.toNat
  n == 0x09 || n == 0x0b || n == 0x0c || n == 0x20 || n == 0xa0 || n == 0xfeff || n == 0x1680
    || (0x2000 ≤ n && n ≤ 0x200a) || n == 0x202f || n == 0x205f || n == 0x3000

/-- Whatever may stand between the tokens of an expression. -/
def isLayout (c : Char) : Bool := isLineEnd c || isSpace c

/-- A text without the blanks at its two ends. -/
def trimBlanks (blank : Char → Bool) (cs : List Char) : List Char :=
  ((cs.dropWhile blank).reverse.dropWhile blank).reverse

end TemplateExpr
