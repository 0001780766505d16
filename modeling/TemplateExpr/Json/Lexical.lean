import TemplateExpr.Json.Basic
import TemplateExpr.Double.Numeral
import TemplateExpr.Text.Utf16

/-!
# The lexical elements of JSON

Strings, numbers and punctuation.  A number keeps as many leading digits as 64 bits hold and is then
scaled by powers of ten, one rounding at each step, so a long numeral may miss the nearest double by a
little; one beyond the doubles is refused.  In a string a surrogate escape needs its partner.
-/

namespace TemplateExpr

namespace Json

/-! ### Numbers -/

/-- Digits appended to a number as long as it stays below `2 ^ 64`, and how many digits were
appended; the first one that does not fit ends it. -/
def appendDigits : Nat → List Char → Nat × Nat
  | n, [] => (n, 0)
  | n, c :: rest =>
    let longer := 10 * n + (c.toNat - '0'.toNat)
    if longer < Nat.pow 2 64 then
      let (total, taken) := appendDigits longer rest
      (total, taken + 1)
    else (n, 0)

def powerOfTen (n : Nat) : Double := Double.ofDecimal false 1 n

/-- A double divided by `10 ^ n`, at most 308 places at a time. -/
def scaleDown (x : Double) (n : Nat) : Double :=
  if n ≤ 308 then x.div (powerOfTen n)
  else if x.isZero then x
  else scaleDown (x.div (powerOfTen 308)) (n - 308)
termination_by n

/-- A significand scaled by `10 ^ exponent`; `none` beyond the doubles. -/
def scale? (significand : Nat) (exponent : Int) : Option Double :=
  let x := Double.ofNat significand
  match exponent with
  | .ofNat up =>
    if up ≤ 308 then
      let y := x.mul (powerOfTen up)
      if y.isFinite then some y else none
    else if x.isZero then some x else none
  | .negSucc below => some (scaleDown x (below + 1))

/-- A number from its sign, whole digits, fraction digits if there is a point, and exponent if there
is one. -/
def number? (negative : Bool) (whole : List Char) (fraction : Option (List Char))
    (exponent : Option Int) : Option Json :=
  let (head, taken) := appendDigits 0 whole
  let left := whole.length - taken
  if fraction.isNone && exponent.isNone && left == 0 then
    if !negative then some (integer head)
    else if head = 0 ∨ Nat.pow 2 63 < head then some (float (Double.ofNat head).neg)
    else some (integer (-(head : Int)))
  else
    let (significand, places) := appendDigits head (fraction.getD [])
    (scale? significand ((left : Int) - places + exponent.getD 0)).map fun x =>
      float (if negative then x.neg else x)

/-- The fraction of a number, if a point follows: at least one digit. -/
def fraction? : List Char → Option (Option (List Char) × List Char)
  | '.' :: rest =>
    let digits := rest.takeWhile Char.isDigit
    if digits.isEmpty then none else some (some digits, rest.dropWhile Char.isDigit)
  | cs => some (none, cs)

/-- The exponent of a number, if an `e` follows: a sign and at least one digit. -/
def exponent? : List Char → Option (Option Int × List Char)
  | [] => some (none, [])
  | c :: rest =>
    if c = 'e' ∨ c = 'E' then
      let (negative, body) := Double.splitSign rest
      let digits := body.takeWhile Char.isDigit
      if digits.isEmpty then none
      else
        let power : Int := natOfDigits digits
        some (some (if negative then -power else power), body.dropWhile Char.isDigit)
    else some (none, c :: rest)

/-- A number without its sign, and the text after it. -/
def readNumber? (negative : Bool) (cs : List Char) : Option (Json × List Char) := do
  let whole := cs.takeWhile Char.isDigit
  guard (!whole.isEmpty && (whole.length == 1 || whole.head? != some '0'))
  let (fraction, afterFraction) ← fraction? (cs.dropWhile Char.isDigit)
  let (exponent, rest) ← exponent? afterFraction
  let value ← number? negative whole fraction exponent
  pure (value, rest)

/-! ### Strings -/

/-- The number of four hexadecimal digits. -/
def hexFour? (a b c d : Char) : Option Nat := do
  let a ← digitValue? 16 a
  let b ← digitValue? 16 b
  let c ← digitValue? 16 c
  let d ← digitValue? 16 d
  pure (0x1000 * a + 0x100 * b + 0x10 * c + d)

/-- The character of an escape with one letter. -/
def shortEscape? (c : Char) : Option Char :=
  match c with
  | '"' => some '"'
  | '\\' => some '\\'
  | '/' => some '/'
  | 'b' => some '\x08'
  | 'f' => some '\x0c'
  | 'n' => some '\n'
  | 'r' => some '\r'
  | 't' => some '\t'
  | _ => none

/-- The rest of a string after its opening quote, with the characters read so far in reverse, and
the text after it.  `high` is a high surrogate that waits for its partner. -/
def readString? (high : Option Nat) (done : List Char) : List Char → Option (String × List Char)
  | '\\' :: 'u' :: a :: b :: c :: d :: rest =>
    match hexFour? a b c d, high with
    | none, _ => none
    | some unit, some partner =>
      if Utf16.isLow unit then readString? none (Utf16.charOf (Utf16.join partner unit) :: done) rest
      else none
    | some unit, none =>
      if Utf16.isHigh unit then readString? (some unit) done rest
      else if Utf16.isLow unit then none
      else readString? none (Utf16.charOf unit :: done) rest
  | '\\' :: c :: rest =>
    match shortEscape? c, high with
    | some c, none => readString? none (c :: done) rest
    | _, _ => none
  | c :: rest =>
    if high.isSome then none
    else if c = '"' then some (String.ofList done.reverse, rest)
    else if c.toNat < 0x20 ∨ c = '\\' then none
    else readString? none (c :: done) rest
  | [] => none

/-! ### Tokens -/

/-- The blanks of JSON. -/
def isJsonBlank (c : Char) : Bool := c == ' ' || c == '\n' || c == '\t' || c == '\r'

/-- The first token of a text that starts with no blank, and the text after it. -/
def readToken? : List Char → Option (JsonToken × List Char)
  | '[' :: rest => some (.openArray, rest)
  | ']' :: rest => some (.closeArray, rest)
  | '{' :: rest => some (.openObject, rest)
  | '}' :: rest => some (.closeObject, rest)
  | ',' :: rest => some (.comma, rest)
  | ':' :: rest => some (.colon, rest)
  | '"' :: rest => (readString? none [] rest).map fun (s, rest) => (.leaf (.string s), rest)
  | 'n' :: 'u' :: 'l' :: 'l' :: rest => some (.leaf .null, rest)
  | 't' :: 'r' :: 'u' :: 'e' :: rest => some (.leaf (.bool true), rest)
  | 'f' :: 'a' :: 'l' :: 's' :: 'e' :: rest => some (.leaf (.bool false), rest)
  | '-' :: rest => (readNumber? true rest).map fun (n, rest) => (.leaf n, rest)
  | cs => (readNumber? false cs).map fun (n, rest) => (.leaf n, rest)

/-- The tokens of a text, with those read so far in reverse; `fuel` bounds their number. -/
def tokensFrom (fuel : Nat) (done : List JsonToken) (cs : List Char) : Option (List JsonToken) :=
  match fuel, cs.dropWhile isJsonBlank with
  | _, [] => some done.reverse
  | 0, _ => none
  | fuel + 1, start =>
    match readToken? start with
    | some (token, rest) => tokensFrom fuel (token :: done) rest
    | none => none

/-- The tokens of a text; each takes at least one character. -/
def tokens? (cs : List Char) : Option (List JsonToken) := tokensFrom cs.length [] cs

end Json

end TemplateExpr
