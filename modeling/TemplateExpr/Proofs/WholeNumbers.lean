import TemplateExpr.Proofs.NumberReadBack
import TemplateExpr.Proofs.RadixLiterals
import TemplateExpr.Proofs.StrictEquality

/-!
# Whole numbers

A double that is a whole number below `2 ^ 53` is written as the number is in decimal, and no other double is written
so.  Below that bound no two whole numbers share a double, so a decimal with digits for whole units alone reads back
only if it is the number itself; and the search for the shortest decimal comes to the units before it comes to
fractions.
-/

namespace TemplateExpr

namespace Double

/-! ### Whole numbers in units -/

theorem natCast_eq_mul_iff {u w : Nat} (h : 0 < w) {m : Int} :
    (u : Int) = m * w ↔ u % w = 0 ∧ ((u / w : Nat) : Int) = m := by
  have nonzero : (w : Int) ≠ 0 := Int.natCast_ne_zero_iff_pos.2 h
  constructor
  · intro product
    constructor
    · apply Int.ofNat.inj
      show ((u % w : Nat) : Int) = 0
      rw [Int.natCast_emod, product, Int.mul_emod_left]
    · rw [Int.natCast_ediv, product, Int.mul_ediv_cancel _ nonzero]
  · rintro ⟨whole, rfl⟩
    rw [← Int.natCast_mul, Nat.div_mul_cancel (Nat.dvd_of_mod_eq_zero whole)]

theorem toInt?_eq_some_iff {x : Double} {n : Int} :
    x.toInt? = some n ↔ x.isFinite ∧ x.signedUnits = n * unitsPerOne := by
  have whole (m : Int) := natCast_eq_mul_iff (u := x.units) unitsPerOne_pos (m := m)
  unfold toInt? signedUnits
  rw [Option.ite_none_right_eq_some, Bool.and_eq_true, beq_iff_eq, and_assoc, Option.some.injEq]
  refine and_congr_right fun _ => ?_
  cases x.isNegative with
  | false => exact (whole n).symm
  | true =>
    have negated : -(x.units : Int) = n * unitsPerOne ↔ (x.units : Int) = -n * unitsPerOne := by
      rw [Int.neg_mul, Int.neg_eq_comm, eq_comm]
    rw [if_pos rfl, if_pos rfl, negated, whole]
    exact and_congr_right fun _ => by omega

theorem natAbs_signedUnits (x : Double) : x.signedUnits.natAbs = x.units := by
  unfold signedUnits
  split
  · rw [Int.natAbs_neg, Int.natAbs_natCast]
  · rw [Int.natAbs_natCast]

/-- Finite numbers are equal if they are the same number of units. -/
theorem equals_iff_signedUnits {x y : Double} (hx : x.isFinite) (hy : y.isFinite) :
    x.equals y ↔ x.signedUnits = y.signedUnits := by
  cases x with
  | nan => cases hx
  | signed negative rank _ =>
    cases y with
    | nan => cases hy
    | signed negative' rank' _ =>
      have same (r s : Nat) : unitsOfRank r = unitsOfRank s ↔ r = s := unitsOfRank_strictMono.injective.eq_iff
      have first := same rank rank'
      have zero := same rank 0
      have zero' := same rank' 0
      have none : unitsOfRank 0 = 0 := rfl
      simp only [equals, place?, beq_iff_eq, signedUnits, isNegative, units]
      cases negative <;> cases negative' <;> simp only [if_true, Bool.false_eq_true, if_false] <;> omega

/-- A whole number gives its double back, but for the sign of a zero. -/
theorem equals_ofInt {x : Double} {n : Int} (h : x.toInt? = some n) : (ofInt n).equals x := by
  obtain ⟨finite, value⟩ := toInt?_eq_some_iff.1 h
  cases x with
  | nan => cases finite
  | signed negative rank bound =>
    have units : unitsOfRank rank = n.natAbs * unitsPerOne := by
      have abs := congrArg Int.natAbs value
      rw [natAbs_signedUnits, Int.natAbs_mul, Int.natAbs_natCast] at abs
      exact abs
    have same : ofInt n = signed (n < 0) rank bound := by
      rw [ofInt, ofRatio, ← units, rankOfRatio_unitsOfRank, ofRank_eq_signed bound]
    have finite' : (signed (n < 0) rank bound).isFinite := finite
    rw [same, equals_iff_signedUnits finite' finite, value]
    show (if decide (n < 0) then -(unitsOfRank rank : Int) else unitsOfRank rank) = n * unitsPerOne
    rw [units, Int.natCast_mul]
    split_ifs with negative
    · rw [Int.ofNat_natAbs_of_nonpos (Int.le_of_lt (of_decide_eq_true negative)), Int.neg_mul, Int.neg_neg]
    · rw [Int.natAbs_of_nonneg (by simpa using negative)]

theorem isFinite_ofInt {n : Int} (h : n.natAbs < Nat.pow 2 64) : (ofInt n).isFinite := by
  obtain ⟨top, finite, units⟩ := exists_rank_two_pow (k := 64) (by decide)
  have below : rankOfRatio (n.natAbs * unitsPerOne) 1 ≤ top := by
    apply rankOfRatio_le_of_le
    rw [units]
    exact Nat.mul_le_mul_right _ (Nat.le_of_lt h)
  rw [ofInt, ofRatio, ofRank_eq_signed (by omega)]
  exact decide_eq_true (Nat.lt_of_le_of_lt below finite)

/-- Below `2 ^ 53` a whole number has a double of its own. -/
theorem ofNat_inj {m n : Nat} (h : n < 2 ^ 53) (same : ofNat m = ofNat n) : m = n := by
  obtain ⟨rank, finite, units, value⟩ := exists_rank_ofNat (Nat.le_of_lt h)
  have round : rankOfRatio (m * unitsPerOne) 1 = rank := by
    have ranks := ofNat_eq_iff.1 same
    rw [← units, rankOfRatio_unitsOfRank] at ranks
    omega
  obtain exact | large : m ≤ 2 ^ 53 ∨ 2 ^ 53 < m := by omega
  · obtain ⟨rank', -, units', -⟩ := exists_rank_ofNat exact
    rw [← units', rankOfRatio_unitsOfRank] at round
    rw [round, units] at units'
    exact (Nat.eq_of_mul_eq_mul_right unitsPerOne_pos units').symm
  · obtain ⟨top, -, top_units, -⟩ := exists_rank_ofNat (Nat.le_refl (2 ^ 53))
    have above : top ≤ rank := by
      rw [← round]
      apply le_rankOfRatio_of_le
      rw [top_units]
      exact Nat.mul_le_mul_right _ (Nat.le_of_lt large)
    have bound := unitsOfRank_strictMono.monotone above
    rw [top_units, units] at bound
    exact absurd (Nat.le_of_mul_le_mul_right bound unitsPerOne_pos) (Nat.not_le.2 h)

end Double

/-! ### Decimals without a fraction -/

namespace Decimal

/-- A decimal with no digits behind the units has the value `n`. -/
def IsWhole (d : Decimal) (n : Nat) : Prop := ∃ k : Nat, d.exponent = k ∧ d.digits * 10 ^ k = n

theorem IsWhole.trim {d : Decimal} {n : Nat} (h : d.IsWhole n) (fuel : Nat) : (d.trim fuel).IsWhole n := by
  induction fuel generalizing d with
  | zero => exact h
  | succ fuel ih =>
    unfold Decimal.trim
    split
    · rename_i zero
      obtain ⟨k, exponent, value⟩ := h
      have digits : d.digits / 10 * 10 = d.digits := by omega
      have next : d.exponent + 1 = (k + 1 : Nat) := by omega
      exact ih ⟨k + 1, next, by rw [Nat.pow_succ', ← Nat.mul_assoc, digits, value]⟩
    · exact h

theorem toDigits_mul_pow {n : Nat} (positive : 0 < n) (k : Nat) :
    Nat.toDigits 10 (n * 10 ^ k) = Nat.toDigits 10 n ++ List.replicate k '0' := by
  induction k with
  | zero => rw [Nat.pow_zero, Nat.mul_one, List.replicate_zero, List.append_nil]
  | succ k ih =>
    have scaled : 0 < n * 10 ^ k := Nat.mul_pos positive (Nat.pow_pos (by decide))
    have last := Nat.toDigits_append_toDigits (b := 10) (d := 0) (by decide) scaled (by decide)
    have value : 10 * (n * 10 ^ k) + 0 = n * 10 ^ (k + 1) := by
      rw [Nat.add_zero, Nat.pow_succ', Nat.mul_left_comm]
    rw [value, ih, List.append_assoc] at last
    rw [← last, List.replicate_succ']
    rfl

/-- In rendered output whole numbers up to twenty-one digits are their digits. -/
theorem IsWhole.layOut {d : Decimal} {n : Nat} (h : d.IsWhole n) (positive : 0 < n) (small : n < 10 ^ 21) :
    d.layOut .template = Nat.toDigits 10 n := by
  obtain ⟨k, exponent, rfl⟩ := h
  have digits : 0 < d.digits := Nat.pos_of_mul_pos_right positive
  have text := toDigits_mul_pow digits k
  have length := (Nat.length_toDigits_le_iff (by decide) (by decide)).2 small
  rw [text, List.length_append, List.length_replicate] at length
  have some_digit : 0 < (Nat.toDigits 10 d.digits).length := List.length_pos_of_ne_nil Nat.toDigits_ne_nil
  obtain ⟨m, point⟩ := Nat.exists_eq_add_of_lt (Nat.add_pos_left some_digit k)
  rw [Nat.zero_add] at point
  have place : d.point = .ofNat (m + 1) := by
    rw [Decimal.point, exponent, ← Int.natCast_add, Decimal.text, point]
    rfl
  have within : Layout.template.least < d.point ∧ d.point ≤ Layout.template.most := by
    rw [place]
    show (-6 : Int) < ((m + 1 : Nat) : Int) ∧ ((m + 1 : Nat) : Int) ≤ 21
    omega
  have zeros : m + 1 - (Nat.toDigits 10 d.digits).length = k := by omega
  rw [Decimal.layOut, if_pos within, place, Decimal.text, positional, if_pos (by omega), zeros, text]
  exact List.append_nil _

end Decimal

/-! ### The shortest decimal of a whole number -/

namespace Double

theorem ofDecimal_natCast (digits k : Nat) : ofDecimal false digits k = ofNat (digits * 10 ^ k) := by
  rw [ofDecimal_eq_ofRatio]
  rfl

theorem scaled_natCast (rank up : Nat) : scaled rank up = (unitsOfRank rank, unitsPerOne * 10 ^ up) := rfl

section

variable {rank n : Nat} (units : unitsOfRank rank = n * unitsPerOne)
include units

theorem ofNat_of_units : ofNat n = ofRank false rank := by
  rw [ofNat, ofRatio, ← units, rankOfRatio_unitsOfRank]

theorem readsAs_units : readsAs rank ⟨n, (0 : Nat)⟩ := by
  rw [readsAs_iff, ← ofNat_of_units units]
  have exact := ofDecimal_natCast n 0
  rwa [Nat.pow_zero, Nat.mul_one] at exact

theorem scaled_units : (scaled rank (0 : Nat)).1 / (scaled rank (0 : Nat)).2 = n := by
  rw [scaled_natCast, Nat.pow_zero, Nat.mul_one, units]
  dsimp only
  rw [Nat.mul_div_cancel n unitsPerOne_pos]

/-- The search for the decimal of a whole number comes to the units at the latest. -/
theorem search_isWhole (h : n < 2 ^ 53) (tie : Tie) {fuel e : Nat} (enough : e < fuel) :
    (search tie rank fuel e).IsWhole n := by
  induction fuel generalizing e with
  | zero => omega
  | succ fuel ih =>
    unfold search
    split
    · rename_i d found
      -- What is found has no fraction either, and no other whole number has the same double.
      obtain ⟨read, exponent⟩ := onGrid?_readsAs found
      refine ⟨e, exponent, ofNat_inj h ?_⟩
      rw [← ofDecimal_natCast, ← exponent, readsAs_iff.1 read, ofNat_of_units units]
    · rename_i nothing
      cases e with
      | zero =>
        have grid := readsAs_units units
        rw [← scaled_units units] at grid
        have found : (onGrid? tie rank (0 : Nat)).isSome := onGrid?_isSome grid
        rw [nothing] at found
        cases found
      | succ e =>
        have next : ((e + 1 : Nat) : Int) - 1 = e := by omega
        rw [next]
        exact ih (by omega)

theorem leadingExponent_nonneg (positive : 0 < n) : 0 ≤ leadingExponent rank := by
  have reached : reaches rank (0 : Nat) := by
    unfold reaches
    rw [scaled_natCast, Nat.pow_zero, Nat.mul_one, units]
    dsimp only
    rw [decide_eq_true_eq]
    exact Nat.le_mul_of_pos_left unitsPerOne positive
  have log : 1074 ≤ (unitsOfRank rank).log2 := by
    have large : 2 ^ (n.log2 + 1074) ≤ unitsOfRank rank := by
      rw [units, ← two_pow_mul_unitsPerOne]
      exact Nat.mul_le_mul_right _ (Nat.log2_self_le (Nat.ne_of_gt positive))
    have nonzero : unitsOfRank rank ≠ 0 := Nat.ne_of_gt (Nat.lt_of_lt_of_le (Nat.two_pow_pos _) large)
    exact Nat.le_trans (Nat.le_add_left 1074 _) ((Nat.le_log2 nonzero).2 large)
  unfold leadingExponent
  generalize (unitsOfRank rank).log2 = place at log
  obtain ⟨start, hstart⟩ : ∃ start, start = ((place : Int) - 1074) * 30103 / 100000 - 1 := ⟨_, rfl⟩
  rw [← hstart]
  -- The estimate of a number below ten may be one too low, and the first step of the climb makes up for it.
  obtain high | low : 0 ≤ start ∨ start = -1 := by omega
  · exact Int.le_trans high (le_climb rank 4 start)
  · have first : climb rank 4 (-1) = climb rank 3 0 := by
      rw [climb]
      exact if_pos reached
    rw [low, first]
    exact le_climb rank 3 0

theorem shortest_isWhole (h : n < 2 ^ 53) (positive : 0 < n) (finite : rank < infinityRank) (tie : Tie) :
    (shortest tie rank).IsWhole n := by
  have most := (leadingExponent_bounds finite).2
  obtain ⟨e, lead⟩ := Int.eq_ofNat_of_zero_le (leadingExponent_nonneg units positive)
  rw [shortest, lead]
  exact (search_isWhole units h tie (by omega)).trim 400

end

/-- A whole number below `2 ^ 53` is written in decimal. -/
theorem text_ofNat {n : Nat} (h : n < 2 ^ 53) : (ofNat n).text = n.repr := by
  obtain ⟨rank, finite, units, value⟩ := exists_rank_ofNat (Nat.le_of_lt h)
  have zero : rank = 0 ↔ n = 0 := by
    have same : unitsOfRank rank = unitsOfRank 0 ↔ rank = 0 := unitsOfRank_strictMono.injective.eq_iff
    have none : unitsOfRank 0 = 0 := rfl
    rw [← same, none, units, Nat.mul_eq_zero, or_iff_left (Nat.ne_of_gt unitsPerOne_pos)]
  rw [value, ofRank_eq_signed (Nat.le_of_lt finite), text]
  by_cases positive : n = 0
  · obtain rfl := zero.2 positive
    subst positive
    rfl
  · have small : n < 10 ^ 21 := Nat.lt_trans h (by decide)
    have shortest := shortest_isWhole units h (Nat.pos_of_ne_zero positive) finite .up
    have digits := (Decimal.text_numeral .template _).trans (shortest.layOut (Nat.pos_of_ne_zero positive) small)
    rw [textChars_finite (mt zero.1 positive) finite]
    exact congrArg String.ofList digits

theorem ofInt_natCast (n : Nat) : ofInt n = ofNat n := by
  have sign : decide ((n : Int) < 0) = false := decide_eq_false (by omega)
  rw [ofInt, sign, Int.natAbs_natCast, ofNat]

theorem toInt?_of_isZero {x : Double} (h : x.isZero) : x.toInt? = some 0 := by
  rw [toInt?_eq_some_iff, Int.zero_mul]
  cases x with
  | nan => cases h
  | signed negative rank _ =>
    obtain rfl : rank = 0 := beq_iff_eq.1 h
    exact ⟨rfl, by cases negative <;> rfl⟩

theorem toInt?_readBack (x : Double) : (ofText x.text).toInt? = x.toInt? := by
  rw [ofText_text]
  split
  · rename_i none
    rw [toInt?_of_isZero none, toInt?_of_isZero rfl]
  · rfl

/-- A number has the text of a whole number exactly if that is its value. -/
theorem text_eq_repr_iff {x : Double} {n : Nat} (h : n < 2 ^ 53) : x.text = n.repr ↔ x.toInt? = some (n : Int) := by
  rw [← text_ofNat h]
  constructor
  · intro same
    rw [← toInt?_readBack, same, toInt?_readBack, toInt?_ofNat h]
  · intro whole
    have same := equals_ofInt whole
    rw [ofInt_natCast] at same
    exact (text_of_equals same).symm

end Double

end TemplateExpr
