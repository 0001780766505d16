import Mathlib.Algebra.Group.Nat.Defs
import TemplateExpr.Double.Shortest

/-!
# Decimals that read back

The double of a decimal depends on the value of the decimal alone, not on how it is split into digits and
a power of ten.  So the shortest decimal of a double reads back: every grid that holds the exact value
does, one of them is within the reach of the search, and trailing zeros do not count.
-/

namespace TemplateExpr

theorem roundDiv_mul_right (num den : Nat) {k : Nat} (hk : 0 < k) :
    roundDiv (num * k) (den * k) = roundDiv num den := by
  have floor : num * k / (den * k) = num / den := Nat.mul_div_mul_right num den hk
  have rest : num * k % (den * k) = num % den * k := Nat.mul_mod_mul_right k num den
  have below : 2 * (num % den * k) < den * k ↔ 2 * (num % den) < den := by
    rw [← Nat.mul_assoc]
    exact Nat.mul_lt_mul_right hk
  have above : den * k < 2 * (num % den * k) ↔ den < 2 * (num % den) := by
    rw [← Nat.mul_assoc]
    exact Nat.mul_lt_mul_right hk
  simp only [roundDiv, floor, rest, below, above]

namespace Double

/-! ### Ratios -/

/-- Rounding depends on the value of a ratio only. -/
theorem rankOfRatio_mul_right (num den : Nat) {k : Nat} (hk : 0 < k) :
    rankOfRatio (num * k) (den * k) = rankOfRatio num den := by
  have quotient : num * k / (den * k) = num / den := Nat.mul_div_mul_right num den hk
  simp only [rankOfRatio, quotient, Nat.mul_right_comm den k, roundDiv_mul_right _ _ hk]

/-- Less than half a unit is rounded to zero. -/
theorem rankOfRatio_small {num den : Nat} (h : 2 * num < den) : rankOfRatio num den = 0 := by
  have quotient : num / den = 0 := Nat.div_eq_of_lt (by omega)
  have rest : num % den = num := Nat.mod_eq_of_lt (by omega)
  have round : roundDiv num den = 0 := by
    rw [roundDiv, rest, quotient, if_pos h]
  have shift : (0 : Nat).log2 - 52 = 0 := rfl
  rw [rankOfRatio, quotient, shift, Nat.zero_mul, Nat.zero_add]
  exact (congrArg (roundDiv num) (Nat.mul_one den)).trans round

theorem le_roundDiv (num den : Nat) : num / den ≤ roundDiv num den := by
  simp only [roundDiv]
  split
  · exact Nat.le_refl _
  · split <;> exact Nat.le_add_right _ _

/-- A value with binary places beyond the 53 of a double has at least the rank of its leading place. -/
theorem le_rankOfRatio {num e k : Nat} (h : 2 ^ k ≤ num) (hk : 52 + e ≤ k) :
    (e + 1) * 2 ^ 52 ≤ rankOfRatio num 1 := by
  have positive : num ≠ 0 := fun zero => absurd (zero ▸ h) (Nat.not_le.2 (Nat.two_pow_pos _))
  have log : k ≤ num.log2 := (Nat.le_log2 positive).2 h
  generalize hs : num.log2 - 52 = shift
  have leading : 2 ^ 52 ≤ num / 2 ^ shift := by
    have log_eq : 52 + shift = num.log2 := by omega
    rw [Nat.le_div_iff_mul_le (Nat.two_pow_pos shift), ← Nat.pow_add, log_eq]
    exact Nat.log2_self_le positive
  simp only [rankOfRatio, Nat.div_one, Nat.one_mul, hs, Nat.pow_eq]
  calc (e + 1) * 2 ^ 52
      = e * 2 ^ 52 + 2 ^ 52 := Nat.succ_mul e _
    _ ≤ shift * 2 ^ 52 + roundDiv num (2 ^ shift) :=
        Nat.add_le_add (Nat.mul_le_mul_right _ (by omega)) (Nat.le_trans leading (le_roundDiv _ _))

theorem ofRank_eq_infinity {rank : Nat} (h : infinityRank ≤ rank) (negative : Bool) :
    ofRank negative rank = infinity negative := by
  simp only [ofRank, infinity, Nat.min_eq_right h]

theorem ofRank_eq_signed {rank : Nat} (h : rank ≤ infinityRank) (negative : Bool) :
    ofRank negative rank = signed negative rank h := by
  simp only [ofRank, Nat.min_eq_left h]

/-! ### Decimals -/

/-- The value of a decimal in units. -/
def decimalRatio (digits : Nat) : Int → Nat × Nat
  | .ofNat up => (digits * Nat.pow 10 up * unitsPerOne, 1)
  | .negSucc below => (digits * unitsPerOne, Nat.pow 10 (below + 1))

theorem two_pow_three_mul_le (n : Nat) : 2 ^ (3 * n) ≤ 10 ^ n := by
  rw [Nat.pow_mul]
  exact Nat.pow_le_pow_left (by decide) n

theorem two_pow_pos (n : Nat) : 0 < Nat.pow 2 n := Nat.two_pow_pos n

theorem unitsPerOne_pos : 0 < unitsPerOne := by
  unfold unitsPerOne
  apply two_pow_pos

theorem two_pow_mul (k n : Nat) : 2 ^ k * Nat.pow 2 n = 2 ^ (k + n) := (Nat.pow_add 2 k n).symm

theorem two_pow_mul_unitsPerOne (k : Nat) : 2 ^ k * unitsPerOne = 2 ^ (k + 1074) := by
  unfold unitsPerOne
  apply two_pow_mul

/-- The bounds that keep the powers small do not change the result. -/
theorem ofDecimal_eq_ofRatio (negative : Bool) (digits : Nat) (exponent : Int) :
    ofDecimal negative digits exponent =
      ofRatio negative (decimalRatio digits exponent).1 (decimalRatio digits exponent).2 := by
  unfold ofDecimal
  split
  · rename_i zero
    have small (den : Nat) (h : 0 < den) : ofRank negative 0 = ofRatio negative (0 * unitsPerOne) den := by
      rw [ofRatio, Nat.zero_mul, rankOfRatio_small h]
    subst zero
    cases exponent with
    | ofNat up =>
      show _ = ofRatio negative (0 * Nat.pow 10 up * unitsPerOne) 1
      rw [Nat.zero_mul]
      exact small 1 Nat.one_pos
    | negSucc below => exact small _ (Nat.pow_pos (Nat.succ_pos 9))
  · rename_i nonzero
    cases exponent with
    | ofNat up =>
      dsimp only
      split
      · rename_i large
        -- A value this large has a place that no double has, so its rank is cut to that of infinity.
        have value : 2 ^ (digits.log2 + 3 * up) ≤ digits * 10 ^ up := by
          rw [Nat.pow_add]
          exact Nat.mul_le_mul (Nat.log2_self_le nonzero) (two_pow_three_mul_le up)
        have units := Nat.mul_le_mul_right unitsPerOne value
        rw [two_pow_mul_unitsPerOne] at units
        have rank : (2046 + 1) * 2 ^ 52 ≤ rankOfRatio (digits * 10 ^ up * unitsPerOne) 1 :=
          le_rankOfRatio units (by omega)
        exact (ofRank_eq_infinity rank negative).symm
      · rfl
    | negSucc below =>
      dsimp only
      split
      · rename_i small
        -- A value this small is less than half a unit.
        have numerator : digits * unitsPerOne < 2 ^ (digits.log2 + 1) * unitsPerOne :=
          Nat.mul_lt_mul_of_pos_right Nat.lt_log2_self unitsPerOne_pos
        rw [two_pow_mul_unitsPerOne] at numerator
        have bound : 2 * 2 ^ (digits.log2 + 1 + 1074) ≤ 10 ^ (below + 1) := by
          rw [← Nat.pow_succ']
          exact Nat.le_trans (Nat.pow_le_pow_right (by decide) (by omega)) (two_pow_three_mul_le (below + 1))
        have rank : rankOfRatio (digits * unitsPerOne) (10 ^ (below + 1)) = 0 :=
          rankOfRatio_small (by omega)
        exact congrArg (ofRank negative) rank.symm
      · rfl

theorem ofDecimal_neg (digits : Nat) (exponent : Int) :
    ofDecimal true digits exponent = (ofDecimal false digits exponent).neg := by
  rw [ofDecimal_eq_ofRatio, ofDecimal_eq_ofRatio]
  rfl

/-- Zeros behind the digits of a decimal can be paid for by its exponent. -/
theorem ofDecimal_shift (negative : Bool) (digits : Nat) (exponent : Int) (k : Nat) :
    ofDecimal negative (digits * 10 ^ k) (exponent - k) = ofDecimal negative digits exponent := by
  have positive (n : Nat) : 0 < 10 ^ n := Nat.pow_pos (Nat.succ_pos 9)
  rw [ofDecimal_eq_ofRatio, ofDecimal_eq_ofRatio, ofRatio, ofRatio]
  refine congrArg (ofRank negative) ?_
  rcases exponent with up | below
  -- The exponent may lose its sign on the way down, and with it the side that the power of ten is on.
  · by_cases h : k ≤ up
    · have exponent_eq : Int.ofNat up - k = Int.ofNat (up - k) := (Int.ofNat_sub h).symm
      have power : 10 ^ k * 10 ^ (up - k) = 10 ^ up := by rw [← Nat.pow_add, Nat.add_sub_cancel' h]
      simp only [exponent_eq, decimalRatio, Nat.pow_eq, Nat.mul_assoc digits, power]
    · obtain ⟨down, hdown⟩ := Nat.exists_eq_add_of_lt (Nat.lt_of_not_le h)
      have exponent_eq : Int.ofNat up - k = Int.negSucc down := by
        rw [Int.negSucc_eq, hdown, Int.ofNat_eq_natCast]
        omega
      have scaled := rankOfRatio_mul_right (digits * 10 ^ up * unitsPerOne) 1 (positive (down + 1))
      have power : 10 ^ k = 10 ^ up * 10 ^ (down + 1) := by rw [← Nat.pow_add, hdown, Nat.add_assoc]
      have value : digits * (10 ^ up * 10 ^ (down + 1)) * unitsPerOne =
          digits * 10 ^ up * unitsPerOne * 10 ^ (down + 1) := by
        rw [← Nat.mul_assoc, Nat.mul_right_comm]
      simp only [exponent_eq, decimalRatio, Nat.pow_eq, power, value]
      rw [← scaled, Nat.one_mul]
  · have exponent_eq : Int.negSucc below - k = Int.negSucc (below + k) := by
      rw [Int.negSucc_eq, Int.negSucc_eq]
      omega
    have scaled := rankOfRatio_mul_right (digits * unitsPerOne) (10 ^ (below + 1)) (positive k)
    have power : 10 ^ (below + 1) * 10 ^ k = 10 ^ (below + k + 1) := by
      rw [← Nat.pow_add, Nat.add_right_comm]
    simp only [exponent_eq, decimalRatio, Nat.pow_eq]
    rw [← scaled, power, Nat.mul_right_comm]

theorem ofDecimal_trim (negative : Bool) (fuel : Nat) (d : Decimal) :
    ofDecimal negative (d.trim fuel).digits (d.trim fuel).exponent =
      ofDecimal negative d.digits d.exponent := by
  induction fuel generalizing d with
  | zero => rfl
  | succ fuel ih =>
    unfold Decimal.trim
    split
    · rename_i zero
      have digits : d.digits / 10 * 10 ^ 1 = d.digits := by omega
      have exponent : d.exponent + 1 - (1 : Nat) = d.exponent := by omega
      have shift := ofDecimal_shift negative (d.digits / 10) (d.exponent + 1) 1
      rw [digits, exponent] at shift
      rw [ih, shift]
    · rfl

/-! ### The search -/

theorem readsAs_iff {rank : Nat} {d : Decimal} :
    readsAs rank d ↔ ofDecimal false d.digits d.exponent = ofRank false rank := by
  rw [readsAs, beq_iff_eq]

/-- What is found on a grid reads back and has the exponent of the grid. -/
theorem onGrid?_readsAs {tie : Tie} {rank : Nat} {exponent : Int} {d : Decimal}
    (h : onGrid? tie rank exponent = some d) : readsAs rank d ∧ d.exponent = exponent := by
  unfold onGrid? at h
  generalize scaled rank exponent = ratio at h
  obtain ⟨num, den⟩ := ratio
  dsimp only at h
  split at h
  · cases h
  · rename_i below _
    cases h
    exact ⟨below, rfl⟩
  · rename_i _ above
    cases h
    exact ⟨above, rfl⟩
  · rename_i below above
    -- Whatever settles the tie, it chooses between the two neighbours, and both read back.
    have either : d = ⟨num / den, exponent⟩ ∨ d = ⟨num / den + 1, exponent⟩ := by
      split at h
      · exact .inl (Option.some.inj h).symm
      · split at h
        · exact .inr (Option.some.inj h).symm
        · cases tie with
          | up => exact .inr (Option.some.inj h).symm
          | even =>
            dsimp only at h
            split at h
            · exact .inl (Option.some.inj h).symm
            · exact .inr (Option.some.inj h).symm
    obtain rfl | rfl := either
    · exact ⟨below, rfl⟩
    · exact ⟨above, rfl⟩

theorem onGrid?_isSome {tie : Tie} {rank : Nat} {exponent : Int}
    (h : readsAs rank ⟨(scaled rank exponent).1 / (scaled rank exponent).2, exponent⟩) :
    (onGrid? tie rank exponent).isSome := by
  unfold onGrid?
  generalize scaled rank exponent = ratio at h
  obtain ⟨num, den⟩ := ratio
  dsimp only at h ⊢
  rw [h]
  split
  · rename_i below _
    cases below
  · rfl
  · rfl
  · split
    · rfl
    · split
      · rfl
      · cases tie <;> rfl

/-- The grid of the units holds every double. -/
theorem onGrid?_units (tie : Tie) (rank : Nat) {below : Nat} (h : below + 1 = 1074) :
    (onGrid? tie rank (.negSucc below)).isSome := by
  have units : unitsPerOne = Nat.pow 2 (below + 1) := by
    unfold unitsPerOne
    exact congrArg _ h.symm
  apply onGrid?_isSome
  have ten : Nat.pow 10 (below + 1) = Nat.pow 5 (below + 1) * Nat.pow 2 (below + 1) := Nat.mul_pow 5 2 _
  have quotient : (scaled rank (.negSucc below)).1 / (scaled rank (.negSucc below)).2 =
      unitsOfRank rank * Nat.pow 5 (below + 1) := by
    simp only [scaled, units, ten]
    rw [← Nat.mul_assoc, Nat.mul_div_cancel _ (two_pow_pos _)]
  rw [quotient, readsAs_iff, ofDecimal_eq_ofRatio]
  simp only [ofRatio, decimalRatio, units]
  rw [Nat.mul_assoc, ← ten]
  have scaled := rankOfRatio_mul_right (unitsOfRank rank) 1 (k := Nat.pow 10 (below + 1))
    (Nat.pow_pos (Nat.succ_pos 9))
  rw [Nat.one_mul, rankOfRatio_unitsOfRank] at scaled
  rw [scaled]

/-- A search that reaches a grid with a decimal ends with one that reads back. -/
theorem search_readsAs {tie : Tie} {rank : Nat} {last : Int} (h : (onGrid? tie rank last).isSome)
    {fuel : Nat} {exponent : Int} (above : last ≤ exponent) (enough : exponent < last + fuel) :
    readsAs rank (search tie rank fuel exponent) := by
  induction fuel generalizing exponent with
  | zero => omega
  | succ fuel ih =>
    unfold search
    split
    · rename_i d found
      exact (onGrid?_readsAs found).1
    · rename_i nothing
      have below : last ≠ exponent := by
        rintro rfl
        rw [nothing] at h
        cases h
      exact ih (by omega) (by omega)

theorem climb_le (rank fuel : Nat) (exponent : Int) : climb rank fuel exponent ≤ exponent + fuel := by
  induction fuel generalizing exponent with
  | zero => exact Int.le_of_eq (Int.add_zero _).symm
  | succ fuel ih =>
    unfold climb
    split
    · have := ih (exponent + 1)
      omega
    · omega

theorem le_climb (rank fuel : Nat) (exponent : Int) : exponent ≤ climb rank fuel exponent := by
  induction fuel generalizing exponent with
  | zero => exact Int.le_refl _
  | succ fuel ih =>
    unfold climb
    split
    · have := ih (exponent + 1)
      omega
    · exact Int.le_refl _

theorem log2_unitsOfRank {rank : Nat} (h : rank < infinityRank) : (unitsOfRank rank).log2 < 2098 := by
  have place : rank / 2 ^ 52 < 2047 := by
    rw [Nat.div_lt_iff_lt_mul (Nat.two_pow_pos 52)]
    exact h
  have fraction : rank % 2 ^ 52 < 2 ^ 52 := Nat.mod_lt rank (Nat.two_pow_pos 52)
  unfold unitsOfRank
  simp only [Nat.pow_eq]
  generalize rank / 2 ^ 52 = exponent at place
  split
  · rename_i small
    by_cases zero : rank = 0
    · rw [zero]
      decide
    · have := (Nat.log2_lt zero).2 small
      omega
  · have positive : (2 ^ 52 + rank % 2 ^ 52) * 2 ^ (exponent - 1) ≠ 0 :=
      Nat.mul_ne_zero (by omega) (Nat.pos_iff_ne_zero.1 (Nat.two_pow_pos _))
    have bound : (2 ^ 52 + rank % 2 ^ 52) * 2 ^ (exponent - 1) < 2 ^ (53 + (exponent - 1)) := by
      rw [Nat.pow_add 2 53]
      exact Nat.mul_lt_mul_of_pos_right (by omega) (Nat.two_pow_pos _)
    have := (Nat.log2_lt positive).2 bound
    omega

/-- The leading digit of a finite double stands within the reach of the search. -/
theorem leadingExponent_bounds {rank : Nat} (h : rank < infinityRank) :
    -1074 ≤ leadingExponent rank ∧ leadingExponent rank < -1074 + 1500 := by
  have log := log2_unitsOfRank h
  unfold leadingExponent
  generalize (unitsOfRank rank).log2 = place at log
  have least := le_climb rank 4 (((place : Int) - 1074) * 30103 / 100000 - 1)
  have most := climb_le rank 4 (((place : Int) - 1074) * 30103 / 100000 - 1)
  omega

theorem readsAs_shortest (tie : Tie) {rank : Nat} (h : rank < infinityRank) :
    readsAs rank (shortest tie rank) := by
  obtain ⟨least, most⟩ := leadingExponent_bounds h
  -- The exact value has at most 1074 decimal places, so the search cannot go past this grid.
  have found : (onGrid? tie rank (.negSucc 1073)).isSome := onGrid?_units tie rank rfl
  have read := readsAs_iff.1 (search_readsAs found least most)
  rw [readsAs_iff, shortest, ofDecimal_trim]
  exact read

theorem shortest_digits_ne_zero (tie : Tie) {rank : Nat} (h : rank < infinityRank) (positive : rank ≠ 0) :
    (shortest tie rank).digits ≠ 0 := by
  intro zero
  have read := readsAs_iff.1 (readsAs_shortest tie h)
  unfold ofDecimal at read
  rw [if_pos zero] at read
  injection read with _ same
  rw [Nat.min_eq_left (Nat.le_of_lt h), Nat.min_eq_left (Nat.zero_le _)] at same
  exact positive same.symm

end Double

end TemplateExpr
