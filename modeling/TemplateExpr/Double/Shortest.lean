import TemplateExpr.Double.Rounding

/-!
# Shortest decimals

The decimal with the fewest digits that reads back as a given double, and of two such the nearer one.
`shortest` tries one digit, two digits, and so on; among the decimals with that many digits only the
two next to the exact value can be the answer, and `Double.ofDecimal` itself tells whether one reads
back.  The search always ends: with enough digits the decimal is the exact value.
-/

namespace TemplateExpr

/-- The decimal `digits · 10 ^ exponent`. -/
structure Decimal where
  digits : Nat
  exponent : Int
  deriving DecidableEq

/-- Which of two equally near decimals is taken. -/
inductive Tie where
  | up
  | even
  deriving DecidableEq

namespace Decimal

/-- The same value without trailing zeros; `fuel` bounds their number. -/
def trim : Nat → Decimal → Decimal
  | 0, d => d
  | fuel + 1, d =>
    if d.digits % 10 = 0 ∧ d.digits ≠ 0 then trim fuel ⟨d.digits / 10, d.exponent + 1⟩ else d

def text (d : Decimal) : List Char := Nat.toDigits 10 d.digits

end Decimal

namespace Double

/-- Whether a decimal reads back as the nonnegative double of a rank. -/
def readsAs (rank : Nat) (d : Decimal) : Bool :=
  ofDecimal false d.digits d.exponent == ofRank false rank

/-- The value of a rank as a ratio, scaled down by `10 ^ exponent`. -/
def scaled (rank : Nat) (exponent : Int) : Nat × Nat :=
  match exponent with
  | .ofNat up => (unitsOfRank rank, unitsPerOne * Nat.pow 10 up)
  | .negSucc below => (unitsOfRank rank * Nat.pow 10 (below + 1), unitsPerOne)

/-- The decimal on the grid of `10 ^ exponent` that reads back, if there is one. -/
def onGrid? (tie : Tie) (rank : Nat) (exponent : Int) : Option Decimal :=
  let (num, den) := scaled rank exponent
  let below : Decimal := ⟨num / den, exponent⟩
  let above : Decimal := ⟨num / den + 1, exponent⟩
  match readsAs rank below, readsAs rank above with
  | false, false => none
  | true, false => some below
  | false, true => some above
  | true, true =>
    let rest := num % den
    if 2 * rest < den then some below
    else if den < 2 * rest then some above
    else match tie with
      | .up => some above
      | .even => some (if below.digits % 2 = 0 then below else above)

/-- The first grid with a decimal that reads back, from `10 ^ exponent` down. -/
def search (tie : Tie) (rank : Nat) : Nat → Int → Decimal
  | 0, exponent => let (num, den) := scaled rank exponent; ⟨num / den, exponent⟩
  | fuel + 1, exponent =>
    match onGrid? tie rank exponent with
    | some d => d
    | none => search tie rank fuel (exponent - 1)

/-- Whether the value of a rank is at least `10 ^ exponent`. -/
def reaches (rank : Nat) (exponent : Int) : Bool :=
  let (num, den) := scaled rank exponent
  den ≤ num

/-- The greatest exponent from `exponent` on that a rank reaches, at most `fuel` steps away. -/
def climb (rank : Nat) : Nat → Int → Int
  | 0, exponent => exponent
  | fuel + 1, exponent =>
    if reaches rank (exponent + 1) then climb rank fuel (exponent + 1) else exponent

/-- The exponent of the leading decimal digit of a nonzero rank.  The binary exponent gives it but for
a few steps, since `2` is a little less than `10 ^ 0.30103`. -/
def leadingExponent (rank : Nat) : Int :=
  climb rank 4 ((((unitsOfRank rank).log2 : Int) - 1074) * 30103 / 100000 - 1)

/-- The shortest decimal that reads back as the nonnegative double of a rank, without trailing
zeros.  A grid of `10 ^ -1074` holds every double exactly. -/
def shortest (tie : Tie) (rank : Nat) : Decimal :=
  (search tie rank 1500 (leadingExponent rank)).trim 400

end Double

end TemplateExpr
