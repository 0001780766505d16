import TemplateExpr.Double.Basic

/-!
# Rounding

The double nearest to an exact value, a tie going to the neighbour of even rank.  The value is given
as a ratio of natural numbers, counted in units of `2 ^ -1074`.  `rankOfRatio` finds how many binary
places lie beyond the 53 that a double holds and rounds there; since ranks run on across the powers
of two, a carry needs no case of its own.
-/

namespace TemplateExpr

/-- The quotient rounded to the nearest whole number, a tie to the even one. -/
def roundDiv (num den : Nat) : Nat :=
  let floor := num / den
  let rest := num % den
  if 2 * rest < den then floor
  else if den < 2 * rest then floor + 1
  else floor + floor % 2

theorem roundDiv_mul (q den : Nat) (h : 0 < den) : roundDiv (q * den) den = q := by
  have hd : q * den / den = q := Nat.mul_div_cancel q h
  have hm : q * den % den = 0 := Nat.mul_mod_left q den
  simp only [roundDiv, hd, hm, Nat.mul_zero, h, ite_true]

namespace Double

/-- The rank of the double nearest to `num / den` units. -/
def rankOfRatio (num den : Nat) : Nat :=
  let shift := (num / den).log2 - 52
  shift * Nat.pow 2 52 + roundDiv num (den * Nat.pow 2 shift)

/-- A double is rounded to itself. -/
theorem rankOfRatio_unitsOfRank (rank : Nat) : rankOfRatio (unitsOfRank rank) 1 = rank := by
  unfold rankOfRatio unitsOfRank
  simp only [Nat.pow_eq]
  by_cases h : rank < 2 ^ 52
  · have hl : rank.log2 - 52 = 0 := by
      by_cases h0 : rank = 0
      · subst h0; rfl
      · have := (Nat.log2_lt h0).2 h
        omega
    have hq : roundDiv rank 1 = rank := by
      have := roundDiv_mul rank 1 Nat.one_pos
      rwa [Nat.mul_one] at this
    simp only [h, ite_true, Nat.div_one, hl, Nat.zero_mul, Nat.pow_zero, Nat.mul_one, hq, Nat.zero_add]
  · have hf : rank % 2 ^ 52 < 2 ^ 52 := Nat.mod_lt _ (by decide)
    have he : rank / 2 ^ 52 - 1 + 1 = rank / 2 ^ 52 := by
      have : 1 ≤ rank / 2 ^ 52 := (Nat.one_le_div_iff (by decide)).2 (Nat.le_of_not_lt h)
      omega
    generalize hs : rank / 2 ^ 52 - 1 = e at he ⊢
    generalize hm : 2 ^ 52 + rank % 2 ^ 52 = m
    have hm0 : m * 2 ^ e ≠ 0 := Nat.mul_ne_zero (by omega) (Nat.pos_iff_ne_zero.1 (Nat.two_pow_pos e))
    have hl : (m * 2 ^ e).log2 = 52 + e := by
      rw [Nat.log2_eq_iff hm0]
      have hlo : 2 ^ 52 ≤ m := by omega
      have hhi : m < 2 ^ 53 := by omega
      constructor
      · rw [Nat.pow_add]
        exact Nat.mul_le_mul_right _ hlo
      · have : 52 + e + 1 = 53 + e := by omega
        rw [this, Nat.pow_add]
        exact Nat.mul_lt_mul_of_pos_right hhi (Nat.two_pow_pos e)
    have hq : roundDiv (m * 2 ^ e) (2 ^ e) = m := roundDiv_mul m _ (Nat.two_pow_pos e)
    have hk : 52 + e - 52 = e := by omega
    simp only [h, ite_false, Nat.div_one, hl, hk, Nat.one_mul, hq]
    have := Nat.div_add_mod rank (2 ^ 52)
    have hmul : (e + 1) * 2 ^ 52 = 2 ^ 52 * (rank / 2 ^ 52) := by rw [he, Nat.mul_comm]
    omega

/-- The double nearest to `num / den` units, with a sign. -/
def ofRatio (negative : Bool) (num den : Nat) : Double := ofRank negative (rankOfRatio num den)

def ofNat (n : Nat) : Double := ofRatio false (n * unitsPerOne) 1

def ofInt (n : Int) : Double := ofRatio (n < 0) (n.natAbs * unitsPerOne) 1

/-- The double nearest to `digits · 10 ^ exponent`.

Two bounds keep the powers small: `2 ^ 3 < 10` puts a value of `2 ^ 1024` or more at infinity, and
one below half a unit at zero. -/
def ofDecimal (negative : Bool) (digits : Nat) (exponent : Int) : Double :=
  if digits = 0 then ofRank negative 0
  else match exponent with
    | .ofNat up =>
      if 1024 ≤ digits.log2 + 3 * up then infinity negative
      else ofRatio negative (digits * Nat.pow 10 up * unitsPerOne) 1
    | .negSucc below =>
      let down := below + 1
      if digits.log2 + 1077 ≤ 3 * down then ofRank negative 0
      else ofRatio negative (digits * unitsPerOne) (Nat.pow 10 down)

end Double

end TemplateExpr
