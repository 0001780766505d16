/-!
# Doubles

The numbers of the expression language: the binary64 values of IEEE 754 with a single NaN.

A value other than NaN is a sign and a *rank*, the place of its absolute value in the increasing list
of the nonnegative doubles: rank 0 is zero, rank 1 the least subnormal, `infinityRank` infinity.
Comparing numbers is comparing signed ranks, and the 64-bit pattern of a number is its rank with the
sign above it.  Every finite double is a whole number of *units* of `2 ^ -1074`, so arithmetic is
exact arithmetic on natural numbers followed by one rounding.
-/

namespace TemplateExpr

/-- The rank of infinity: `2046` finite exponents, each with `2 ^ 52` fractions, come before it. -/
def infinityRank : Nat := 9218868437227405312

theorem infinityRank_eq : infinityRank = 2047 * Nat.pow 2 52 := rfl

/-- A double: NaN, or a sign and the rank of the absolute value. -/
inductive Double where
  | nan
  | signed (negative : Bool) (rank : Nat) (rank_le : rank ≤ infinityRank)
  deriving DecidableEq

namespace Double

/-! ### Particular values -/

def zero : Double := .signed false 0 (Nat.zero_le _)

def infinity (negative : Bool) : Double := .signed negative infinityRank (Nat.le_refl _)

instance : Inhabited Double := ⟨zero⟩

/-- The double of a sign and a rank; ranks beyond infinity count as infinity. -/
def ofRank (negative : Bool) (rank : Nat) : Double :=
  .signed negative (min rank infinityRank) (Nat.min_le_right _ _)

def isNaN : Double → Bool
  | nan => true
  | signed .. => false

def isFinite : Double → Bool
  | nan => false
  | signed _ rank _ => rank < infinityRank

def isZero : Double → Bool
  | nan => false
  | signed _ rank _ => rank == 0

/-- Whether the sign is minus; NaN has none. -/
def isNegative : Double → Bool
  | nan => false
  | signed negative _ _ => negative

/-! ### Bit patterns -/

/-- The pattern of every NaN that is written. -/
def nanBits : Nat := 0x7ff8000000000000

/-- The 64-bit pattern as a number. -/
def toBits : Double → Nat
  | nan => nanBits
  | signed negative rank _ => (if negative then Nat.pow 2 63 else 0) + rank

/-- The double of a 64-bit pattern; patterns above infinity are NaN. -/
def ofBits (bits : Nat) : Double :=
  let rank := bits % Nat.pow 2 63
  if h : rank ≤ infinityRank then .signed (bits / Nat.pow 2 63 % 2 == 1) rank h else nan

theorem ofBits_toBits (x : Double) : ofBits x.toBits = x := by
  cases x with
  | nan => rfl
  | signed negative rank h =>
    have hr : rank < Nat.pow 2 63 := Nat.lt_of_le_of_lt h (by decide)
    cases negative with
    | false =>
      have hb : toBits (.signed false rank h) = rank := by simp [toBits]
      have hm : rank % Nat.pow 2 63 = rank := Nat.mod_eq_of_lt hr
      have hd : rank / Nat.pow 2 63 = 0 := Nat.div_eq_of_lt hr
      simp only [ofBits, hb, hm, hd, h, dite_true]
      rfl
    | true =>
      have hb : toBits (.signed true rank h) = Nat.pow 2 63 + rank := rfl
      have hm : (Nat.pow 2 63 + rank) % Nat.pow 2 63 = rank := by
        rw [Nat.add_mod_left, Nat.mod_eq_of_lt hr]
      have hd : (Nat.pow 2 63 + rank) / Nat.pow 2 63 = 1 := by
        rw [Nat.add_div_left rank (by decide), Nat.div_eq_of_lt hr]
      simp only [ofBits, hb, hm, hd, h, dite_true]
      rfl

/-! ### Units -/

/-- The number of units of `2 ^ -1074` in the nonnegative double of a rank. -/
def unitsOfRank (rank : Nat) : Nat :=
  if rank < Nat.pow 2 52 then rank
  else (Nat.pow 2 52 + rank % Nat.pow 2 52) * Nat.pow 2 (rank / Nat.pow 2 52 - 1)

/-- How many units one is. -/
def unitsPerOne : Nat := Nat.pow 2 1074

def units : Double → Nat
  | nan => 0
  | signed _ rank _ => unitsOfRank rank

def signedUnits (x : Double) : Int := if x.isNegative then -(x.units : Int) else x.units

/-! ### Comparison -/

/-- The rank with its sign, by which numbers are compared; both zeros have 0 and NaN has none. -/
def place? : Double → Option Int
  | nan => none
  | signed negative rank _ => some (if negative then -(rank : Int) else rank)

/-- The order of two numbers, `none` if one is NaN. -/
def compare? (x y : Double) : Option Ordering :=
  match x.place?, y.place? with
  | some i, some j => some (compare i j)
  | _, _ => none

/-- Numeric equality: the two zeros are equal, and NaN equals nothing. -/
def equals (x y : Double) : Bool :=
  match x.place?, y.place? with
  | some i, some j => i == j
  | _, _ => false

theorem equals_iff {x y : Double} : x.equals y ↔ ∃ i, x.place? = some i ∧ y.place? = some i := by
  unfold equals
  split
  · rename_i i j hi hj
    rw [hi, hj, beq_iff_eq]
    constructor
    · intro h
      exact ⟨i, rfl, by rw [h]⟩
    · rintro ⟨k, h1, h2⟩
      cases h1
      cases h2
      rfl
  · rename_i h
    constructor
    · intro hf
      cases hf
    · rintro ⟨k, h1, h2⟩
      exact absurd h2 (h k k h1)

theorem equals_comm (x y : Double) : x.equals y = y.equals x := by
  rw [Bool.eq_iff_iff, equals_iff, equals_iff]
  constructor
  all_goals
    rintro ⟨i, hx, hy⟩
    exact ⟨i, hy, hx⟩

/-! ### Sign -/

def neg : Double → Double
  | nan => nan
  | signed negative rank h => .signed (!negative) rank h

theorem neg_neg (x : Double) : x.neg.neg = x := by
  cases x with
  | nan => rfl
  | signed negative rank h => simp only [neg, Bool.not_not]

end Double

end TemplateExpr
