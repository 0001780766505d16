import Mathlib.Data.Nat.Log
import TemplateExpr.Double.Arithmetic
import TemplateExpr.Proofs.DecimalValue

/-!
# The nearest double

The ranks number the doubles in order, and a value between two neighbouring doubles is rounded to one of
them: to the nearer one, and from the midpoint to the one of even rank.  So the double of a whole number is the
nearest one, and no other is.
-/

namespace TemplateExpr

namespace Double

/-! ### The order of the doubles -/

/-- A significand of 53 bits, or any smaller one below the normal doubles. -/
def IsSignificand (place m : Nat) : Prop := 2 ^ 52 ≤ m ∨ place = 0

theorem unitsOfRank_place {place m : Nat} (normal : IsSignificand place m) (h : m ≤ 2 ^ 53) :
    unitsOfRank (place * 2 ^ 52 + m) = m * 2 ^ place := by
  unfold unitsOfRank
  simp only [Nat.pow_eq]
  by_cases small : m < 2 ^ 52
  · have first : place = 0 := normal.resolve_left (Nat.not_le.2 small)
    subst first
    rw [Nat.zero_mul, Nat.zero_add, if_pos small, Nat.pow_zero, Nat.mul_one]
  · rw [if_neg (by omega)]
    by_cases carry : m = 2 ^ 53
    · have quotient : (place * 2 ^ 52 + m) / 2 ^ 52 = place + 2 := by omega
      have rest : (place * 2 ^ 52 + m) % 2 ^ 52 = 0 := by omega
      have next : place + 2 - 1 = place + 1 := by omega
      rw [quotient, rest, next, carry, Nat.pow_succ 2 place]
      omega
    · have quotient : (place * 2 ^ 52 + m) / 2 ^ 52 = place + 1 := by omega
      have rest : 2 ^ 52 + (place * 2 ^ 52 + m) % 2 ^ 52 = m := by omega
      rw [quotient, rest, Nat.add_sub_cancel]

theorem exists_place (rank : Nat) :
    ∃ place m, rank = place * 2 ^ 52 + m ∧ IsSignificand place m ∧ m < 2 ^ 53 := by
  by_cases small : rank < 2 ^ 52
  · exact ⟨0, rank, by omega, .inr rfl, by omega⟩
  · refine ⟨rank / 2 ^ 52 - 1, 2 ^ 52 + rank % 2 ^ 52, ?_, .inl ?_, ?_⟩ <;> omega

theorem unitsOfRank_strictMono : StrictMono unitsOfRank := by
  refine strictMono_nat_of_lt_succ fun rank => ?_
  obtain ⟨place, m, rfl, normal, bound⟩ := exists_place rank
  have next : IsSignificand place (m + 1) := normal.imp_left (by omega)
  rw [Nat.add_assoc, unitsOfRank_place normal (by omega), unitsOfRank_place next (by omega)]
  exact Nat.mul_lt_mul_of_pos_right (Nat.lt_succ_self m) (Nat.two_pow_pos place)

/-! ### Rounding between neighbours -/

theorem floor_isSignificand (q : Nat) :
    IsSignificand (q.log2 - 52) (q / 2 ^ (q.log2 - 52)) ∧ q / 2 ^ (q.log2 - 52) < 2 ^ 53 := by
  by_cases small : q.log2 ≤ 52
  · have place : q.log2 - 52 = 0 := by omega
    rw [place, Nat.pow_zero, Nat.div_one]
    refine ⟨.inr rfl, ?_⟩
    calc q < 2 ^ (q.log2 + 1) := Nat.lt_log2_self
      _ ≤ 2 ^ 53 := Nat.pow_le_pow_right (by decide) (by omega)
  · have nonzero : q ≠ 0 := by
      rintro rfl
      exact small (by decide)
    have top : 52 + (q.log2 - 52) = q.log2 := by omega
    constructor
    · left
      rw [Nat.le_div_iff_mul_le (Nat.two_pow_pos _), ← Nat.pow_add, top]
      exact Nat.log2_self_le nonzero
    · rw [Nat.div_lt_iff_lt_mul (Nat.two_pow_pos _), ← Nat.pow_add]
      have above : 53 + (q.log2 - 52) = q.log2 + 1 := by omega
      rw [above]
      exact Nat.lt_log2_self

/-- A ratio lies between two neighbouring doubles and is rounded to one of them. -/
theorem rankOfRatio_between (num : Nat) {den : Nat} (h : 0 < den) :
    ∃ rank, unitsOfRank rank * den ≤ num ∧ num < unitsOfRank (rank + 1) * den ∧
      rankOfRatio num den =
        if 2 * num < (unitsOfRank rank + unitsOfRank (rank + 1)) * den then rank
        else if (unitsOfRank rank + unitsOfRank (rank + 1)) * den < 2 * num then rank + 1
        else rank + rank % 2 := by
  obtain ⟨place, hplace⟩ : ∃ place, place = (num / den).log2 - 52 := ⟨_, rfl⟩
  obtain ⟨normal, bound⟩ := floor_isSignificand (num / den)
  rw [← hplace, Nat.div_div_eq_div_mul] at normal bound
  have positive : 0 < den * 2 ^ place := Nat.mul_pos h (Nat.two_pow_pos place)
  have split : den * 2 ^ place * (num / (den * 2 ^ place)) + num % (den * 2 ^ place) = num :=
    Nat.div_add_mod _ _
  have rest : num % (den * 2 ^ place) < den * 2 ^ place := Nat.mod_lt _ positive
  have round : rankOfRatio num den = place * 2 ^ 52 + roundDiv num (den * 2 ^ place) := by
    rw [hplace]
    rfl
  rw [roundDiv] at round
  generalize num / (den * 2 ^ place) = floor at *
  have next : IsSignificand place (floor + 1) := normal.imp_left (by omega)
  have lower := unitsOfRank_place normal (by omega)
  have upper := unitsOfRank_place next (by omega)
  have lower_eq : floor * 2 ^ place * den = den * 2 ^ place * floor := by
    rw [Nat.mul_assoc, Nat.mul_comm, Nat.mul_comm den]
  have upper_eq : (floor + 1) * 2 ^ place * den = den * 2 ^ place * floor + den * 2 ^ place := by
    rw [Nat.succ_mul, Nat.add_mul, lower_eq, Nat.mul_comm den]
  -- Both doubles are whole numbers of the spacing, and the quotient by it is what is rounded.
  refine ⟨place * 2 ^ 52 + floor, ?_, ?_, ?_⟩
  · rw [lower]
    omega
  · rw [Nat.add_assoc, upper]
    omega
  · rw [Nat.add_assoc, lower, upper, Nat.add_mul, lower_eq, upper_eq, round]
    generalize den * 2 ^ place = spacing at *
    generalize spacing * floor = below at *
    split_ifs <;> omega

theorem neighbours_unique {units r s : Nat} (lower : unitsOfRank r ≤ units) (upper : units < unitsOfRank (r + 1))
    (lower' : unitsOfRank s ≤ units) (upper' : units < unitsOfRank (s + 1)) : s = r := by
  have first : r < s + 1 := unitsOfRank_strictMono.lt_iff_lt.1 (by omega)
  have second : s < r + 1 := unitsOfRank_strictMono.lt_iff_lt.1 (by omega)
  omega

theorem rankOfRatio_of_neighbours {units rank : Nat} (lower : unitsOfRank rank ≤ units)
    (upper : units < unitsOfRank (rank + 1)) : rankOfRatio units 1 =
      if 2 * units < unitsOfRank rank + unitsOfRank (rank + 1) then rank
      else if unitsOfRank rank + unitsOfRank (rank + 1) < 2 * units then rank + 1
      else rank + rank % 2 := by
  obtain ⟨found, below, above, round⟩ := rankOfRatio_between units Nat.one_pos
  rw [Nat.mul_one] at below above round
  rw [round, neighbours_unique lower upper below above]

theorem rankOfRatio_eq_of_near {units rank : Nat} (lower : unitsOfRank rank ≤ units)
    (half : 2 * units < unitsOfRank rank + unitsOfRank (rank + 1)) : rankOfRatio units 1 = rank := by
  have next : unitsOfRank rank < unitsOfRank (rank + 1) := unitsOfRank_strictMono (Nat.lt_succ_self rank)
  rw [rankOfRatio_of_neighbours lower (by omega), if_pos half]

theorem le_rankOfRatio_of_le {units rank : Nat} (h : unitsOfRank rank ≤ units) :
    rank ≤ rankOfRatio units 1 := by
  obtain ⟨found, below, above, round⟩ := rankOfRatio_between units Nat.one_pos
  rw [Nat.mul_one] at below above
  have least : rank < found + 1 := unitsOfRank_strictMono.lt_iff_lt.1 (by omega)
  rw [round]
  split_ifs <;> omega

theorem rankOfRatio_le_of_le {units rank : Nat} (h : units ≤ unitsOfRank rank) :
    rankOfRatio units 1 ≤ rank := by
  obtain ⟨found, below, above, round⟩ := rankOfRatio_between units Nat.one_pos
  rw [Nat.mul_one] at below above round
  have most : found ≤ rank := unitsOfRank_strictMono.le_iff_le.1 (Nat.le_trans below h)
  obtain rfl | less : found = rank ∨ found < rank := by omega
  · rw [round, if_pos (by omega)]
  · rw [round]
    split_ifs <;> omega

/-! ### The nearest double -/

/-- How far the double of a rank is from a number of units. -/
def distance (rank units : Nat) : Nat := (unitsOfRank rank - units) + (units - unitsOfRank rank)

/-- The double of a rank is nearer than any other to a number of units, or as near and of even rank.  Infinity
has the place of the next power of two here. -/
def NearestRank (units rank : Nat) : Prop :=
  rank ≤ infinityRank ∧ ∀ other ≤ infinityRank, other ≠ rank → distance rank units < distance other units ∨
    distance rank units = distance other units ∧ rank % 2 = 0

theorem nearestRank_infinity {units : Nat} (h : unitsOfRank infinityRank ≤ units) :
    NearestRank units infinityRank := by
  refine ⟨Nat.le_refl _, fun other bound apart => .inl ?_⟩
  have order : unitsOfRank other < unitsOfRank infinityRank := unitsOfRank_strictMono (by omega)
  unfold distance
  omega

theorem nearestRank_lower {units rank : Nat} (lower : unitsOfRank rank ≤ units)
    (finite : rank < infinityRank) (half : 2 * units < unitsOfRank rank + unitsOfRank (rank + 1) ∨
      2 * units = unitsOfRank rank + unitsOfRank (rank + 1) ∧ rank % 2 = 0) : NearestRank units rank := by
  refine ⟨Nat.le_of_lt finite, fun other bound apart => ?_⟩
  unfold distance
  obtain below | above : other < rank ∨ rank + 1 ≤ other := by omega
  · have order : unitsOfRank other < unitsOfRank rank := unitsOfRank_strictMono below
    omega
  · have order : unitsOfRank (rank + 1) ≤ unitsOfRank other := unitsOfRank_strictMono.monotone above
    omega

theorem nearestRank_upper {units rank : Nat} (upper : units < unitsOfRank (rank + 1))
    (finite : rank < infinityRank) (half : unitsOfRank rank + unitsOfRank (rank + 1) < 2 * units ∨
      2 * units = unitsOfRank rank + unitsOfRank (rank + 1) ∧ (rank + 1) % 2 = 0) :
    NearestRank units (rank + 1) := by
  refine ⟨finite, fun other bound apart => ?_⟩
  unfold distance
  obtain below | above : other ≤ rank ∨ rank + 1 < other := by omega
  · have order : unitsOfRank other ≤ unitsOfRank rank := unitsOfRank_strictMono.monotone below
    omega
  · have order : unitsOfRank (rank + 1) < unitsOfRank other := unitsOfRank_strictMono above
    omega

theorem nearestRank_rounded (units : Nat) :
    NearestRank units (min (rankOfRatio units 1) infinityRank) := by
  obtain ⟨rank, lower, upper, round⟩ := rankOfRatio_between units Nat.one_pos
  rw [Nat.mul_one] at lower upper round
  obtain high | finite : infinityRank ≤ rank ∨ rank < infinityRank := by omega
  · have least : min (rankOfRatio units 1) infinityRank = infinityRank := by
      rw [round]
      split_ifs <;> omega
    rw [least]
    exact nearestRank_infinity (Nat.le_trans (unitsOfRank_strictMono.monotone high) lower)
  · have whole : min (rankOfRatio units 1) infinityRank = rankOfRatio units 1 := by
      rw [round]
      split_ifs <;> omega
    rw [whole, round]
    split_ifs with less greater
    · exact nearestRank_lower lower finite (.inl less)
    · exact nearestRank_upper upper finite (.inl greater)
    · obtain even | odd : rank % 2 = 0 ∨ rank % 2 = 1 := by omega
      · rw [even, Nat.add_zero]
        exact nearestRank_lower lower finite (.inr ⟨by omega, even⟩)
      · rw [odd]
        exact nearestRank_upper upper finite (.inr ⟨by omega, by omega⟩)

theorem NearestRank.unique {units r s : Nat} (h : NearestRank units r) (h' : NearestRank units s) :
    r = s := by
  -- Two ranks as near as each other are both even, and one between them would be nearer.
  have ordered {r s : Nat} (h : NearestRank units r) (h' : NearestRank units s) : ¬ r < s := by
    intro less
    obtain ⟨-, nearer⟩ := h
    obtain ⟨bound, nearer'⟩ := h'
    have first := nearer s bound (by omega)
    have second := nearer' r (by omega) (by omega)
    have middle := nearer (r + 1) (by omega) (by omega)
    have lower : unitsOfRank r < unitsOfRank (r + 1) := unitsOfRank_strictMono (Nat.lt_succ_self r)
    have upper : unitsOfRank (r + 1) < unitsOfRank s := unitsOfRank_strictMono (by omega)
    unfold distance at first second middle
    omega
  exact Nat.le_antisymm (Nat.le_of_not_lt (ordered h' h)) (Nat.le_of_not_lt (ordered h h'))

/-- The double nearest to a whole number, a tie going to the even rank. -/
def IsNearest (n : Nat) (x : Double) : Prop :=
  ∃ rank, x = ofRank false rank ∧ NearestRank (n * unitsPerOne) rank

/-- A whole number is rounded to the double nearest to it, and to no other. -/
theorem isNearest_iff {n : Nat} {x : Double} : IsNearest n x ↔ x = ofNat n := by
  have rounded := nearestRank_rounded (n * unitsPerOne)
  have value : ofNat n = ofRank false (min (rankOfRatio (n * unitsPerOne) 1) infinityRank) := by
    rw [ofNat, ofRatio, ofRank, ofRank]
    simp only [Nat.min_assoc, Nat.min_self]
  rw [value]
  constructor
  · rintro ⟨rank, rfl, nearest⟩
    rw [nearest.unique rounded]
  · rintro rfl
    exact ⟨_, rfl, rounded⟩

/-! ### Exact values -/

theorem exists_rank_double (rank : Nat) :
    ∃ r ≤ rank + 2 ^ 52, unitsOfRank r = unitsOfRank rank * 2 := by
  obtain ⟨place, m, rfl, normal, bound⟩ := exists_place rank
  rw [unitsOfRank_place normal (by omega)]
  by_cases leading : 2 ^ 52 ≤ m
  · refine ⟨(place + 1) * 2 ^ 52 + m, by omega, ?_⟩
    rw [unitsOfRank_place (.inl leading) (by omega), Nat.pow_succ, Nat.mul_assoc]
  · have first : place = 0 := normal.resolve_left leading
    refine ⟨0 * 2 ^ 52 + m * 2, by omega, ?_⟩
    rw [unitsOfRank_place (.inr rfl) (by omega), first, Nat.pow_zero, Nat.mul_one, Nat.mul_one]

theorem exists_rank_mul_two_pow (rank k : Nat) :
    ∃ r ≤ rank + k * 2 ^ 52, unitsOfRank r = unitsOfRank rank * Nat.pow 2 k := by
  induction k with
  | zero => exact ⟨rank, Nat.le_add_right _ _, (Nat.mul_one _).symm⟩
  | succ k ih =>
    obtain ⟨r, bound, hr⟩ := ih
    obtain ⟨s, bound', hs⟩ := exists_rank_double r
    exact ⟨s, by omega, by rw [hs, hr, Nat.mul_assoc]; rfl⟩

theorem exists_rank_of_significand {m k : Nat} (hm : m ≤ 2 ^ 53) (hk : k ≤ 2000) :
    ∃ rank < infinityRank, unitsOfRank rank = m * Nat.pow 2 k := by
  have units : unitsOfRank (0 * 2 ^ 52 + m) = m := by
    rw [unitsOfRank_place (.inr rfl) hm, Nat.pow_zero, Nat.mul_one]
  obtain ⟨rank, bound, hrank⟩ := exists_rank_mul_two_pow (0 * 2 ^ 52 + m) k
  rw [units] at hrank
  have finite : rank < infinityRank := by
    rw [infinityRank]
    omega
  exact ⟨rank, finite, hrank⟩

/-- Whole numbers up to `2 ^ 53` are doubles. -/
theorem exists_rank_ofNat {n : Nat} (h : n ≤ 2 ^ 53) :
    ∃ rank < infinityRank, unitsOfRank rank = n * unitsPerOne ∧ ofNat n = ofRank false rank := by
  have significand : ∃ rank < infinityRank, unitsOfRank rank = n * unitsPerOne := by
    unfold unitsPerOne
    apply exists_rank_of_significand h
    decide
  obtain ⟨rank, finite, units⟩ := significand
  exact ⟨rank, finite, units, by rw [ofNat, ofRatio, ← units, rankOfRatio_unitsOfRank]⟩

theorem exists_rank_two_pow {k : Nat} (hk : k ≤ 900) :
    ∃ rank < infinityRank, unitsOfRank rank = 2 ^ k * unitsPerOne := by
  obtain ⟨rank, finite, units⟩ := exists_rank_of_significand (m := 1) (k := k + 1074) (by decide) (by omega)
  exact ⟨rank, finite, by rw [units, Nat.one_mul, Nat.pow_eq, two_pow_mul_unitsPerOne]⟩

/-! ### Sums and products of nonnegative doubles -/

theorem add_ofRank {r s : Nat} (hr : r < infinityRank) (hs : s < infinityRank) :
    (ofRank false r).add (ofRank false s) =
      ofRank false (rankOfRatio (unitsOfRank r + unitsOfRank s) 1) := by
  rw [ofRank_eq_signed (Nat.le_of_lt hr), ofRank_eq_signed (Nat.le_of_lt hs)]
  have total : signedUnits (signed false r (Nat.le_of_lt hr)) + signedUnits (signed false s (Nat.le_of_lt hs)) =
      ((unitsOfRank r + unitsOfRank s : Nat) : Int) := rfl
  simp only [add, isFinite, hr, hs, decide_true, Bool.not_true, Bool.false_eq_true, if_false, total]
  split_ifs with zero
  · have none : unitsOfRank r + unitsOfRank s = 0 := by omega
    rw [none]
    rfl
  · have sign : decide (((unitsOfRank r + unitsOfRank s : Nat) : Int) < 0) = false := by
      rw [decide_eq_false_iff_not]
      omega
    rw [sign]
    rfl

theorem infinity_add {s : Nat} (hs : s < infinityRank) :
    (infinity false).add (ofRank false s) = infinity false := by
  rw [ofRank_eq_signed (Nat.le_of_lt hs), infinity]
  simp [add, isFinite, hs]

theorem mul_ofRank {r s : Nat} (hr : r < infinityRank) (hs : s < infinityRank) :
    (ofRank false r).mul (ofRank false s) =
      ofRank false (rankOfRatio (unitsOfRank r * unitsOfRank s) unitsPerOne) := by
  rw [ofRank_eq_signed (Nat.le_of_lt hr), ofRank_eq_signed (Nat.le_of_lt hs)]
  simp only [mul, isFinite, hr, hs, decide_true, Bool.not_true, Bool.or_self, Bool.false_eq_true, if_false]
  rfl

theorem infinity_mul {s : Nat} (hs : s < infinityRank) (nonzero : s ≠ 0) :
    (infinity false).mul (ofRank false s) = infinity false := by
  rw [ofRank_eq_signed (Nat.le_of_lt hs), infinity]
  simp [mul, isFinite, isZero, isNegative, infinity, nonzero, infinityRank]

end Double

end TemplateExpr
