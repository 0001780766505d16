import Mathlib.Data.List.Induction
import TemplateExpr.Double.Numeral
import TemplateExpr.Proofs.NearestDouble

/-!
# Digits of a radix

A radix numeral is read digit by digit, and the sum is rounded after each.  Up to `2 ^ 53` nothing is lost; a number
that has come so far has at least the spacing of two, so whatever digit follows is less than half of it and
lost.  So the result is the number rounded once, but with zeros for the digits behind the one with which it
reaches `2 ^ 53`.
-/

namespace TemplateExpr

namespace Double

/-! ### One digit more -/

/-- The rank of the number that a double and one digit more make, rounded. -/
def appendDigit (radix rank d : Nat) : Nat := rankOfRatio (unitsOfRank rank * radix + d * unitsPerOne) 1

theorem mul_add_ofRank (rank : Nat) {k d : Nat} (hk : k ≤ 53) (hd : d ≤ 2 ^ 53) :
    ((ofRank false rank).mul (ofNat (2 ^ k))).add (ofNat d) =
      ofRank false (appendDigit (2 ^ k) rank d) := by
  have least : 2 ^ k ≤ 2 ^ 53 := Nat.pow_le_pow_right (by decide) hk
  obtain ⟨s, finite, units, radix⟩ := exists_rank_ofNat least
  obtain ⟨t, finite', units', digit⟩ := exists_rank_ofNat hd
  have nonzero : s ≠ 0 := by
    rintro rfl
    have positive : 0 < 2 ^ k * unitsPerOne := Nat.mul_pos (Nat.two_pow_pos k) unitsPerOne_pos
    rw [← units] at positive
    exact absurd positive (by decide)
  -- A power of two times a double is exact, so the rounding of the product does nothing.
  obtain ⟨r, -, product⟩ := exists_rank_mul_two_pow rank k
  have exact : rankOfRatio (unitsOfRank rank * unitsOfRank s) unitsPerOne = r := by
    have scaled := rankOfRatio_mul_right (unitsOfRank rank * 2 ^ k) 1 unitsPerOne_pos
    rw [Nat.one_mul] at scaled
    rw [units, ← Nat.mul_assoc, scaled, ← rankOfRatio_unitsOfRank r, product]
    rfl
  have below : rank ≤ r := by
    apply unitsOfRank_strictMono.le_iff_le.1
    rw [product]
    exact Nat.le_mul_of_pos_right _ (Nat.two_pow_pos k)
  have next : appendDigit (2 ^ k) rank d = rankOfRatio (unitsOfRank r + unitsOfRank t) 1 := by
    rw [product, units']
    rfl
  have above : r ≤ appendDigit (2 ^ k) rank d := by
    rw [next]
    exact le_rankOfRatio_of_le (Nat.le_add_right _ _)
  rw [radix, digit]
  by_cases small : rank < infinityRank
  · rw [mul_ofRank small finite, exact]
    by_cases small' : r < infinityRank
    · rw [add_ofRank small' finite', next]
    · rw [ofRank_eq_infinity (by omega), infinity_add finite', ofRank_eq_infinity (by omega)]
  · rw [ofRank_eq_infinity (by omega), infinity_mul finite nonzero, infinity_add finite',
      ofRank_eq_infinity (by omega)]

theorem foldRadix_ofRank {k : Nat} (hk : k ≤ 4) {digits : List Char}
    (valid : ∀ c ∈ digits, isDigitIn (2 ^ k) c) (rank : Nat) :
    foldRadix (2 ^ k) (ofRank false rank) digits =
      some (ofRank false (digits.foldl
        (fun rank c => appendDigit (2 ^ k) rank ((digitValue? (2 ^ k) c).getD 0)) rank)) := by
  induction digits generalizing rank with
  | nil => rfl
  | cons c rest ih =>
    obtain ⟨d, hd⟩ := Option.isSome_iff_exists.1 (valid c List.mem_cons_self)
    have bound : 2 ^ k ≤ 2 ^ 4 := Nat.pow_le_pow_right (by decide) hk
    have small := digitValue?_lt hd
    rw [foldRadix, hd, List.foldl_cons, hd]
    dsimp only [Option.getD_some]
    rw [mul_add_ofRank rank (by omega) (by omega)]
    exact ih (fun c hc => valid c (List.mem_cons_of_mem _ hc)) _

/-! ### Digits behind 53 bits -/

theorem rankOfRatio_mul_two_pow {units : Nat} (h : 2 ^ 52 ≤ units) (k : Nat) :
    rankOfRatio (units * 2 ^ k) 1 = rankOfRatio units 1 + k * 2 ^ 52 := by
  have nonzero : units ≠ 0 := by omega
  have top : 52 ≤ units.log2 := (Nat.le_log2 nonzero).2 h
  have log : (units * 2 ^ k).log2 = units.log2 + k := by
    rw [Nat.log2_eq_iff (Nat.mul_ne_zero nonzero (Nat.pos_iff_ne_zero.1 (Nat.two_pow_pos k)))]
    have next : units.log2 + k + 1 = units.log2 + 1 + k := by omega
    rw [next, Nat.pow_add, Nat.pow_add]
    constructor
    · exact Nat.mul_le_mul_right _ (Nat.log2_self_le nonzero)
    · exact Nat.mul_lt_mul_of_pos_right Nat.lt_log2_self (Nat.two_pow_pos k)
  have shift : units.log2 + k - 52 = units.log2 - 52 + k := by omega
  have round : roundDiv (units * 2 ^ k) (2 ^ (units.log2 - 52 + k)) = roundDiv units (2 ^ (units.log2 - 52)) := by
    rw [Nat.pow_add, roundDiv_mul_right _ _ (Nat.two_pow_pos k)]
  simp only [rankOfRatio, Nat.div_one, Nat.one_mul, Nat.pow_eq, log, shift, round]
  omega

theorem exists_place_of_large {rank : Nat} (h : 2 ^ 53 * unitsPerOne ≤ unitsOfRank rank) :
    ∃ e m, rank = (e + 1 + 1074) * 2 ^ 52 + m ∧ 2 ^ 52 ≤ m ∧ m < 2 ^ 53 := by
  obtain ⟨place, m, rfl, normal, bound⟩ := exists_place rank
  rw [unitsOfRank_place normal (by omega)] at h
  have high : 1074 < place := by
    have less : 2 ^ 53 * unitsPerOne < 2 ^ 53 * 2 ^ place :=
      Nat.lt_of_le_of_lt h (Nat.mul_lt_mul_of_pos_right bound (Nat.two_pow_pos place))
    rw [two_pow_mul_unitsPerOne, ← Nat.pow_add] at less
    exact Nat.lt_of_add_lt_add_left ((Nat.pow_lt_pow_iff_right (by decide)).1 less)
  exact ⟨place - 1075, m, by omega, normal.resolve_right (by omega), bound⟩

theorem appendDigit_lost {rank k d : Nat} (h : 2 ^ 53 * unitsPerOne ≤ unitsOfRank rank) (hd : d < 2 ^ k) :
    appendDigit (2 ^ k) rank d = rank + k * 2 ^ 52 := by
  -- The spacing is two or more, so times the radix it is more than twice the digit.
  obtain ⟨e, m, rfl, leading, bound⟩ := exists_place_of_large h
  have normal (place : Nat) : IsSignificand place m := .inl leading
  have next : IsSignificand (e + 1 + 1074 + k) (m + 1) := .inl (by omega)
  have units := unitsOfRank_place (normal (e + 1 + 1074)) (by omega)
  have lower := unitsOfRank_place (normal (e + 1 + 1074 + k)) (by omega)
  have upper := unitsOfRank_place next (by omega)
  have moved : (e + 1 + 1074) * 2 ^ 52 + m + k * 2 ^ 52 = (e + 1 + 1074 + k) * 2 ^ 52 + m := by omega
  have product : m * 2 ^ (e + 1 + 1074) * 2 ^ k = m * 2 ^ (e + 1 + 1074 + k) := by
    rw [Nat.pow_add 2 _ k, Nat.mul_assoc]
  have digit : 2 * (d * unitsPerOne) < 2 ^ (e + 1 + 1074 + k) := by
    have spacing : e + 1 + 1074 + k = e + 1 + k + 1074 := by omega
    rw [spacing, ← two_pow_mul_unitsPerOne, ← Nat.mul_assoc]
    apply Nat.mul_lt_mul_of_pos_right _ unitsPerOne_pos
    calc 2 * d < 2 * 2 ^ k := by omega
      _ = 2 ^ (k + 1) := (Nat.pow_succ').symm
      _ ≤ 2 ^ (e + 1 + k) := Nat.pow_le_pow_right (by decide) (by omega)
  rw [moved]
  apply rankOfRatio_eq_of_near
  · rw [lower, units, product]
    omega
  · rw [lower, Nat.add_assoc _ m 1, upper, units, product, Nat.add_mul m 1, Nat.one_mul]
    omega

/-! ### The number that digits denote -/

/-- The whole number that digits of a radix denote. -/
def radixValue (radix : Nat) (digits : List Char) : Nat :=
  digits.foldl (fun n c => n * radix + (digitValue? radix c).getD 0) 0

/-- The weight of the digit with which a number, read from the left, reaches `2 ^ 53`. -/
def keptWeight (radix n : Nat) : Nat := radix ^ Nat.log radix (n / 2 ^ 53)

/-- A number with zeros for the digits behind the one with which it reaches `2 ^ 53`. -/
def keptValue (radix n : Nat) : Nat := n - n % keptWeight radix n

theorem keptWeight_small {radix n : Nat} (h : n < 2 ^ 53 * radix) : keptWeight radix n = 1 := by
  have quotient : n / 2 ^ 53 < radix := by
    rw [Nat.div_lt_iff_lt_mul (by decide), Nat.mul_comm]
    exact h
  rw [keptWeight, Nat.log_of_lt quotient, Nat.pow_zero]

theorem keptWeight_append {radix n d : Nat} (one_lt : 1 < radix) (h : 2 ^ 53 ≤ n) (hd : d < radix) :
    keptWeight radix (n * radix + d) = keptWeight radix n * radix := by
  have drop : (n * radix + d) / 2 ^ 53 / radix = n / 2 ^ 53 := by
    rw [Nat.div_right_comm, Nat.mul_comm, Nat.mul_add_div (by omega), Nat.div_eq_of_lt hd, Nat.add_zero]
  have enough : radix ≤ (n * radix + d) / 2 ^ 53 := by
    rw [Nat.le_div_iff_mul_le (by decide), Nat.mul_comm]
    have := Nat.mul_le_mul_right radix h
    omega
  rw [keptWeight, keptWeight, Nat.log_of_one_lt_of_le one_lt enough, drop, Nat.pow_succ]

theorem keptValue_append {radix n d : Nat} (one_lt : 1 < radix) (h : 2 ^ 53 ≤ n) (hd : d < radix) :
    keptValue radix (n * radix + d) = keptValue radix n * radix := by
  have last : (n * radix + d) % radix = d := Nat.mul_add_mod_of_lt hd
  have front : (n * radix + d) / radix = n := by
    rw [Nat.mul_comm, Nat.mul_add_div (by omega), Nat.div_eq_of_lt hd, Nat.add_zero]
  have rest : (n * radix + d) % (radix * keptWeight radix n) = d + radix * (n % keptWeight radix n) := by
    rw [Nat.mod_mul, last, front]
  rw [keptValue, keptWeight_append one_lt h hd, Nat.mul_comm (keptWeight radix n), rest, keptValue,
    Nat.sub_mul, Nat.mul_comm radix]
  omega

theorem keptWeight_le (radix : Nat) {n : Nat} (h : 2 ^ 53 ≤ n) :
    2 ^ 53 * keptWeight radix n ≤ n := by
  have quotient : n / 2 ^ 53 ≠ 0 := by
    rw [Nat.div_ne_zero_iff]
    omega
  have power : keptWeight radix n ≤ n / 2 ^ 53 := Nat.pow_log_le_self radix quotient
  rw [Nat.mul_comm]
  exact (Nat.le_div_iff_mul_le (by decide)).1 power

theorem keptValue_small {radix n : Nat} (h : n < 2 ^ 53 * radix) : keptValue radix n = n := by
  rw [keptValue, keptWeight_small h, Nat.mod_one, Nat.sub_zero]

theorem le_keptValue {radix n : Nat} (positive : 0 < radix) (h : 2 ^ 53 ≤ n) :
    2 ^ 53 ≤ keptValue radix n := by
  have weight : 0 < keptWeight radix n := Nat.pow_pos positive
  have leading : 2 ^ 53 ≤ n / keptWeight radix n := (Nat.le_div_iff_mul_le weight).2 (keptWeight_le radix h)
  have whole : keptWeight radix n * (n / keptWeight radix n) + n % keptWeight radix n = n := Nat.div_add_mod _ _
  have multiple : n / keptWeight radix n ≤ keptWeight radix n * (n / keptWeight radix n) :=
    Nat.le_mul_of_pos_left _ weight
  rw [keptValue]
  omega

theorem radixValue_append (radix : Nat) (digits : List Char) (c : Char) :
    radixValue radix (digits ++ [c]) = radixValue radix digits * radix + (digitValue? radix c).getD 0 := by
  rw [radixValue, List.foldl_append]
  rfl

/-- One digit more rounds the number that counts, whether or not it still has room for the digit. -/
theorem appendDigit_kept {k : Nat} (positive : 0 < k) (n : Nat) {d : Nat} (hd : d < 2 ^ k) :
    appendDigit (2 ^ k) (rankOfRatio (keptValue (2 ^ k) n * unitsPerOne) 1) d =
      rankOfRatio (keptValue (2 ^ k) (n * 2 ^ k + d) * unitsPerOne) 1 := by
  have one_lt : 1 < 2 ^ k := Nat.one_lt_two_pow (by omega)
  obtain exact | large : n < 2 ^ 53 ∨ 2 ^ 53 ≤ n := by omega
  · obtain ⟨rank, -, units, -⟩ := exists_rank_ofNat (Nat.le_of_lt exact)
    have room : n * 2 ^ k + d < 2 ^ 53 * 2 ^ k := by
      have := Nat.mul_le_mul_right (2 ^ k) (Nat.succ_le_of_lt exact)
      rw [Nat.succ_mul] at this
      omega
    have before : n < 2 ^ 53 * 2 ^ k := Nat.lt_of_lt_of_le exact (Nat.le_mul_of_pos_right _ (by omega))
    rw [keptValue_small before, keptValue_small room, appendDigit, ← units, rankOfRatio_unitsOfRank, units,
      Nat.mul_right_comm, ← Nat.add_mul]
  · have kept := Nat.mul_le_mul_right unitsPerOne (le_keptValue (by omega : 0 < 2 ^ k) large)
    obtain ⟨top, -, units, -⟩ := exists_rank_ofNat (Nat.le_refl (2 ^ 53))
    have reached : 2 ^ 53 * unitsPerOne ≤ unitsOfRank (rankOfRatio (keptValue (2 ^ k) n * unitsPerOne) 1) := by
      rw [← units] at kept ⊢
      exact unitsOfRank_strictMono.monotone (le_rankOfRatio_of_le kept)
    have normal : 2 ^ 52 ≤ keptValue (2 ^ k) n * unitsPerOne := by
      have := Nat.le_mul_of_pos_right (2 ^ 53) unitsPerOne_pos
      omega
    rw [appendDigit_lost reached hd, keptValue_append one_lt large hd, Nat.mul_right_comm,
      rankOfRatio_mul_two_pow normal]

/-- Rounding at every digit is rounding once, but with zeros for the digits that come too late. -/
theorem foldl_appendDigit {k : Nat} (positive : 0 < k) {digits : List Char}
    (valid : ∀ c ∈ digits, isDigitIn (2 ^ k) c) :
    digits.foldl (fun rank c => appendDigit (2 ^ k) rank ((digitValue? (2 ^ k) c).getD 0)) 0 =
      rankOfRatio (keptValue (2 ^ k) (radixValue (2 ^ k) digits) * unitsPerOne) 1 := by
  induction digits using List.reverseRecOn with
  | nil =>
    have zero : keptValue (2 ^ k) (radixValue (2 ^ k) []) = 0 :=
      keptValue_small (Nat.mul_pos (by decide) (Nat.two_pow_pos k))
    rw [zero, Nat.zero_mul]
    rfl
  | append_singleton digits c ih =>
    obtain ⟨d, hd⟩ := Option.isSome_iff_exists.1 (valid c (List.mem_append_right _ List.mem_cons_self))
    rw [List.foldl_append, List.foldl_cons, List.foldl_nil, ih fun c hc => valid c (List.mem_append_left _ hc),
      radixValue_append, hd, Option.getD_some]
    exact appendDigit_kept positive _ (digitValue?_lt hd)

theorem readRadix_eq {k : Nat} (positive : 0 < k) (hk : k ≤ 4) {digits : List Char} (nonempty : digits ≠ [])
    (valid : ∀ c ∈ digits, isDigitIn (2 ^ k) c) :
    readRadix (2 ^ k) digits = ofNat (keptValue (2 ^ k) (radixValue (2 ^ k) digits)) := by
  have start : zero = ofRank false 0 := rfl
  rw [readRadix, if_neg (by simpa using nonempty), start, foldRadix_ofRank hk valid,
    foldl_appendDigit positive valid]
  rfl

end Double

end TemplateExpr
