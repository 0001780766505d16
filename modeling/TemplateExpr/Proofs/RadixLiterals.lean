import TemplateExpr.Proofs.NumeralGrammar

/-!
# Radix literals

The double of a radix literal, in an expression or in a text that is coerced to a number.  Rounding at every digit
goes wrong in one way only: the number with zeros for the digits that come too late is halfway between two doubles, so
it goes to the even one, and one of these digits is not zero, so the number itself is nearer to the other.
-/

namespace TemplateExpr

namespace Double

/-! ### Digits that come too late -/

/-- With zeros for the digits behind the one with which it reaches `2 ^ 53`, a number would be halfway between two
doubles, the lower of them even; and it is more. -/
def LosesTie (radix n : Nat) : Prop :=
  keptValue radix n < n ∧ ∃ rank < infinityRank, rank % 2 = 0 ∧
    unitsOfRank rank + unitsOfRank (rank + 1) = 2 * (keptValue radix n * unitsPerOne)

theorem keptValue_le (radix n : Nat) : keptValue radix n ≤ n := Nat.sub_le n _

theorem keptValue_eq (radix n : Nat) :
    keptValue radix n = n / keptWeight radix n * keptWeight radix n := by
  have whole : keptWeight radix n * (n / keptWeight radix n) + n % keptWeight radix n = n := Nat.div_add_mod _ _
  rw [keptValue, Nat.mul_comm]
  omega

theorem exists_multiples {w rank : Nat} (h : 2 ^ 53 * 2 ^ w * unitsPerOne < unitsOfRank (rank + 1)) :
    ∃ m e, unitsOfRank rank = m * 2 ^ e * (2 * (2 ^ w * unitsPerOne)) ∧
      unitsOfRank (rank + 1) = (m + 1) * 2 ^ e * (2 * (2 ^ w * unitsPerOne)) := by
  obtain ⟨place, m, rfl, normal, bound⟩ := exists_place rank
  have next : IsSignificand place (m + 1) := normal.imp_left (by omega)
  have units := unitsOfRank_place normal (by omega)
  have units' := unitsOfRank_place next (by omega)
  rw [Nat.add_assoc, units'] at h
  have high : w + 1074 < place := by
    have spread : (m + 1) * 2 ^ place ≤ 2 ^ 53 * 2 ^ place := Nat.mul_le_mul_right _ bound
    have less := Nat.lt_of_lt_of_le h spread
    rw [Nat.mul_assoc, two_pow_mul_unitsPerOne] at less
    exact (Nat.pow_lt_pow_iff_right (by decide)).1 (Nat.lt_of_mul_lt_mul_left less)
  obtain ⟨e, rfl⟩ := Nat.exists_eq_add_of_lt high
  have spacing : 2 ^ (w + 1074 + e + 1) = 2 ^ e * (2 * (2 ^ w * unitsPerOne)) := by
    have sum : w + 1074 + e + 1 = e + (1 + (w + 1074)) := by omega
    rw [two_pow_mul_unitsPerOne, sum, Nat.pow_add 2 e, Nat.pow_add 2 1, Nat.pow_one]
  rw [spacing] at units units'
  exact ⟨m, e, by rw [units, Nat.mul_assoc], by rw [Nat.add_assoc, units', Nat.mul_assoc]⟩

theorem ofNat_eq_iff {m n : Nat} : ofNat m = ofNat n ↔
    min (rankOfRatio (m * unitsPerOne) 1) infinityRank = min (rankOfRatio (n * unitsPerOne) 1) infinityRank := by
  simp only [ofNat, ofRatio, ofRank, signed.injEq, true_and]

/-- Where a multiple of the weight lies does not depend on the digits that come too late. -/
theorem le_keptValue_of_le {radix n c : Nat} (positive : 0 < radix)
    (h : c * (2 * (keptWeight radix n * unitsPerOne)) ≤ 2 * (n * unitsPerOne)) :
    c * (2 * (keptWeight radix n * unitsPerOne)) ≤ 2 * (keptValue radix n * unitsPerOne) := by
  have weight : 0 < keptWeight radix n := Nat.pow_pos positive
  have scaled : c * (2 * (keptWeight radix n * unitsPerOne)) = c * keptWeight radix n * (2 * unitsPerOne) := by
    rw [Nat.mul_left_comm 2, Nat.mul_assoc]
  rw [scaled, Nat.mul_left_comm 2] at h ⊢
  have units : 0 < 2 * unitsPerOne := Nat.mul_pos (by decide) unitsPerOne_pos
  have below : c ≤ n / keptWeight radix n :=
    (Nat.le_div_iff_mul_le weight).2 (Nat.le_of_mul_le_mul_right h units)
  rw [keptValue_eq]
  exact Nat.mul_le_mul_right _ (Nat.mul_le_mul_right _ below)

theorem keptValue_between {k n rank : Nat} (lower : unitsOfRank rank ≤ n * unitsPerOne)
    (upper : n * unitsPerOne < unitsOfRank (rank + 1)) :
    unitsOfRank rank ≤ keptValue (2 ^ k) n * unitsPerOne ∧
      (unitsOfRank rank + unitsOfRank (rank + 1) ≤ 2 * (n * unitsPerOne) →
        unitsOfRank rank + unitsOfRank (rank + 1) ≤ 2 * (keptValue (2 ^ k) n * unitsPerOne)) := by
  obtain exact | large : n < 2 ^ 53 ∨ 2 ^ 53 ≤ n := Nat.lt_or_ge n (2 ^ 53)
  · have whole : keptValue (2 ^ k) n = n :=
      keptValue_small (Nat.lt_of_lt_of_le exact (Nat.le_mul_of_pos_right _ (Nat.two_pow_pos k)))
    rw [whole]
    exact ⟨lower, id⟩
  · have weight : keptWeight (2 ^ k) n = 2 ^ (k * Nat.log (2 ^ k) (n / 2 ^ 53)) := by
      rw [keptWeight, ← Nat.pow_mul]
    have reach := Nat.mul_le_mul_right unitsPerOne (keptWeight_le (2 ^ k) large)
    rw [weight] at reach
    obtain ⟨m, e, units, units'⟩ := exists_multiples (Nat.lt_of_le_of_lt reach upper)
    rw [← weight] at units units'
    -- From here on doubles and midpoints are multiples of the weight, as is what counts of the number.
    have low := le_keptValue_of_le (c := 2 * (m * 2 ^ e)) (n := n) (Nat.two_pow_pos k)
    have middle := le_keptValue_of_le (c := m * 2 ^ e + (m + 1) * 2 ^ e) (n := n) (Nat.two_pow_pos k)
    rw [Nat.mul_assoc, ← units] at low
    rw [Nat.add_mul, ← units, ← units'] at middle
    exact ⟨Nat.le_of_mul_le_mul_left (low (Nat.mul_le_mul_left 2 lower)) (by decide), middle⟩

/-- The digits that come too late count unless they decide a tie. -/
theorem ofNat_keptValue_iff {k n : Nat} : ofNat (keptValue (2 ^ k) n) = ofNat n ↔ ¬ LosesTie (2 ^ k) n := by
  obtain ⟨rank, lower, upper, -⟩ := rankOfRatio_between (n * unitsPerOne) Nat.one_pos
  rw [Nat.mul_one] at lower upper
  obtain ⟨low, middle⟩ := keptValue_between (k := k) lower upper
  have kept := keptValue_le (2 ^ k) n
  have order := Nat.mul_le_mul_right unitsPerOne kept
  have tie : LosesTie (2 ^ k) n ↔ keptValue (2 ^ k) n < n ∧ rank < infinityRank ∧ rank % 2 = 0 ∧
      unitsOfRank rank + unitsOfRank (rank + 1) = 2 * (keptValue (2 ^ k) n * unitsPerOne) := by
    constructor
    · rintro ⟨less, found, finite, even, half⟩
      have step : unitsOfRank found < unitsOfRank (found + 1) := unitsOfRank_strictMono (Nat.lt_succ_self found)
      obtain rfl := neighbours_unique low (Nat.lt_of_le_of_lt order upper) (s := found) (by omega) (by omega)
      exact ⟨less, finite, even, half⟩
    · rintro ⟨less, finite, even, half⟩
      exact ⟨less, rank, finite, even, half⟩
  have apart (less : keptValue (2 ^ k) n < n) := Nat.mul_lt_mul_of_pos_right less unitsPerOne_pos
  have same (equal : keptValue (2 ^ k) n = n) : keptValue (2 ^ k) n * unitsPerOne = n * unitsPerOne := by
    rw [equal]
  rw [tie, ofNat_eq_iff, rankOfRatio_of_neighbours lower upper,
    rankOfRatio_of_neighbours low (Nat.lt_of_le_of_lt order upper)]
  split_ifs <;> omega

theorem toInt?_ofNat {n : Nat} (h : n < 2 ^ 53) : (ofNat n).toInt? = some (n : Int) := by
  obtain ⟨rank, finite, units, value⟩ := exists_rank_ofNat (Nat.le_of_lt h)
  have whole : unitsOfRank rank % unitsPerOne = 0 := by rw [units, Nat.mul_mod_left]
  have quotient : unitsOfRank rank / unitsPerOne = n := by rw [units, Nat.mul_div_cancel _ unitsPerOne_pos]
  rw [value, ofRank_eq_signed (Nat.le_of_lt finite)]
  simp [toInt?, isFinite, Double.units, isNegative, finite, whole, quotient]

end Double

/-! ### Literals in a source -/

theorem isNamePart_of_isDigitIn {radix : Nat} {c : Char} (h : isDigitIn radix c) : isNamePart c := by
  have code := code_of_isDigitIn h
  have small : c.toNat < 0x80 := by omega
  simp only [isNamePart, isNameStart, isLetter, isNumber, if_pos small, Bool.or_eq_true, Bool.and_eq_true,
    decide_eq_true_eq]
  omega

theorem EndsName.no_digit {tail : List Char} (h : EndsName tail) (radix : Nat) :
    ∀ c ∈ tail.head?, isDigitIn radix c = false := by
  intro c hc
  refine Bool.eq_false_iff.2 fun digit => ?_
  have part := isNamePart_of_isDigitIn digit
  rw [h c hc] at part
  cases part

theorem isDigit_of_isDigitIn {radix : Nat} (small : radix ≤ 10) {c : Char} (h : isDigitIn radix c) :
    c.isDigit := by
  obtain ⟨d, found⟩ := Option.isSome_iff_exists.1 h
  have value := (Option.ite_none_right_eq_some.1 found).1
  split_ifs at value with decimal
  · exact Bool.and_eq_true_iff.2 ⟨decide_eq_true decimal.1, decide_eq_true decimal.2⟩
  all_goals omega

theorem scans_radix {mark : Char} {radix : Nat} (hm : (mark, radix) ∈ radixMarks) {digits tail : List Char}
    (ne_nil : digits ≠ []) (valid : ∀ c ∈ digits, isDigitIn radix c) (ht : EndsName tail) :
    Scans ('0' :: mark :: digits ++ tail) tail (IsToken (.number (Double.readRadix radix digits))) := by
  have announced : announcedRadix? '0' (mark :: digits ++ tail) = some radix := by
    rw [announcedRadix?, if_pos rfl]
    exact mem_radixMarks_iff.1 hm
  have run := takeWhile_run valid (ht.no_digit radix)
  have some_digit : digits.isEmpty = false := List.isEmpty_eq_false_iff.2 ne_nil
  have number : readNumeral '0' (mark :: digits ++ tail) =
      .ok (Double.readRadix radix digits, ('0' :: mark :: digits).length) := by
    rw [readNumeral_eq, announced, Option.elim_some, List.cons_append, List.tail_cons, readRadixNumeral, run,
      some_digit]
    rfl
  exact scans_numeral rfl number ht

/-- A zero and octal digits behind it, and nothing else. -/
def IsZeroOctal (literal digits : List Char) : Prop :=
  literal = '0' :: digits ∧ digits ≠ [] ∧ ∀ c ∈ digits, isDigitIn 8 c

theorem IsZeroOctal.all {literal digits : List Char} (h : IsZeroOctal literal digits) :
    ∀ c ∈ literal, isDigitIn 8 c := by
  obtain ⟨rfl, -, valid⟩ := h
  exact List.forall_mem_cons.2 ⟨by decide, valid⟩

theorem isLegacyOctal_iff {cs : List Char} : isLegacyOctal cs ↔ ∃ digits, IsZeroOctal cs digits := by
  unfold isLegacyOctal
  rw [Bool.and_eq_true, Bool.and_eq_true, decide_eq_true_eq, beq_iff_eq, List.all_eq_true]
  constructor
  · rintro ⟨⟨long, first⟩, valid⟩
    obtain ⟨digits, rfl⟩ := List.head?_eq_some_iff.1 first
    refine ⟨digits, rfl, ?_, (List.forall_mem_cons.1 valid).2⟩
    rintro rfl
    exact absurd long (by decide)
  · rintro ⟨digits, h⟩
    have valid := h.all
    obtain ⟨rfl, ne_nil, -⟩ := h
    exact ⟨⟨Nat.succ_le_succ (List.length_pos_iff.2 ne_nil), rfl⟩, valid⟩

theorem scans_legacyOctal {digits tail : List Char} (ne_nil : digits ≠ []) (valid : ∀ c ∈ digits, isDigitIn 8 c)
    (ht : EndsName tail) :
    Scans ('0' :: digits ++ tail) tail (IsToken (.number (Double.readRadix 8 digits))) := by
  have octal : isLegacyOctal ('0' :: digits) := isLegacyOctal_iff.2 ⟨digits, rfl, ne_nil, valid⟩
  obtain ⟨d, rest, rfl⟩ := List.exists_cons_of_ne_nil ne_nil
  have decimal : ∀ c ∈ d :: rest, c.isDigit := fun c hc => isDigit_of_isDigitIn (by decide) (valid c hc)
  have announced : announcedRadix? '0' (d :: rest ++ tail) = none := by
    rw [announcedRadix?, if_pos rfl]
    exact radixOfLetter?_eq_none (not_isNameStart_of_isDigit (decimal d List.mem_cons_self))
  have run := takeWhile_run decimal fun c hc => not_isDigit_of_not_isNamePart (ht c hc)
  have number : readNumeral '0' (d :: rest ++ tail) =
      .ok (Double.readRadix 8 (d :: rest), ('0' :: d :: rest).length) := by
    rw [readNumeral_eq, announced, Option.elim_none, readPlainNumeral, run, if_pos octal]
    rfl
  exact scans_numeral rfl number ht

/-! ### The double of a literal -/

theorem Double.readRadix_rounded {mark : Char} {radix : Nat} (hm : (mark, radix) ∈ radixMarks) {digits : List Char}
    (ne_nil : digits ≠ []) (valid : ∀ c ∈ digits, isDigitIn radix c) :
    IsNearest (keptValue radix (radixValue radix digits)) (readRadix radix digits) ∧
    (IsNearest (radixValue radix digits) (readRadix radix digits) ↔ ¬ LosesTie radix (radixValue radix digits)) ∧
    (radixValue radix digits < 2 ^ 53 →
      (readRadix radix digits).toInt? = some (radixValue radix digits : Int)) := by
  obtain ⟨k, positive, bound, rfl⟩ := exists_two_pow hm
  have double := readRadix_eq positive bound ne_nil valid
  refine ⟨isNearest_iff.2 double, ?_, fun small => ?_⟩
  · rw [isNearest_iff, double]
    exact ofNat_keptValue_iff
  · have room : radixValue (2 ^ k) digits < 2 ^ 53 * 2 ^ k :=
      Nat.lt_of_lt_of_le small (Nat.le_mul_of_pos_right _ (Nat.two_pow_pos k))
    rw [double, keptValue_small room, toInt?_ofNat small]

/-- The double of a radix literal is the one nearest to what counts of its number.  This is the one nearest to the
number except where digits that come too late would decide a tie, and the number itself below `2 ^ 53`.  It does not
matter whether the literal is a text that is coerced or stands in a source, where eight may be announced by the zero
alone. -/
theorem Double.radix_literal {mark : Char} {radix : Nat} (hm : (mark, radix) ∈ radixMarks) {digits : List Char}
    (ne_nil : digits ≠ []) (valid : ∀ c ∈ digits, isDigitIn radix c) :
    IsNearest (keptValue radix (radixValue radix digits)) (readRadix radix digits) ∧
    (IsNearest (radixValue radix digits) (readRadix radix digits) ↔ ¬ LosesTie radix (radixValue radix digits)) ∧
    (radixValue radix digits < 2 ^ 53 → (readRadix radix digits).toInt? = some (radixValue radix digits : Int)) ∧
    (∀ s before after, s.toList = before ++ ('0' :: mark :: digits ++ after) → (∀ c ∈ before, isNumeralBlank c) →
      (∀ c ∈ after, isNumeralBlank c) → ofText s = readRadix radix digits) ∧
    (∀ tail, EndsName tail →
      Scans ('0' :: mark :: digits ++ tail) tail (IsToken (.number (readRadix radix digits))) ∧
      (radix = 8 → Scans ('0' :: digits ++ tail) tail (IsToken (.number (readRadix 8 digits))))) := by
  obtain ⟨kept, nearest, exact⟩ := readRadix_rounded hm ne_nil valid
  refine ⟨kept, nearest, exact, fun s before after text hb ha => ?_, fun tail ht => ⟨?_, fun eight => ?_⟩⟩
  · rw [ofText_around text hb ha (IsNumeral.radix hm ne_nil valid).chars, readTrimmed_radix hm]
  · exact scans_radix hm ne_nil valid ht
  · rw [eight] at valid
    exact scans_legacyOctal ne_nil valid ht

theorem Double.radix_literal_mask : (readRadix 16 ['f', 'f']).toInt? = some 255 ∧
    IsNearest 0x20000000000003 (readRadix 16 "20000000000003".toList) := by
  have mark : ('x', 16) ∈ radixMarks := by decide
  have mask : ∀ c ∈ ['f', 'f'], isDigitIn 16 c := List.all_eq_true.1 (by decide)
  have digits : ∀ c ∈ "20000000000003".toList, isDigitIn 16 c := List.all_eq_true.1 (by decide)
  obtain ⟨-, -, exact, -⟩ := Double.radix_literal mark (by decide) mask
  obtain ⟨-, nearest, -⟩ := Double.radix_literal mark (by decide) digits
  refine ⟨exact (by decide), nearest.2 ?_⟩
  rintro ⟨less, -⟩
  have whole := keptValue_small (by decide : radixValue 16 "20000000000003".toList < 2 ^ 53 * 16)
  omega

/-- Fifteen digits whose number is a little more than halfway from one double to the next. -/
theorem Double.radix_literal_loses_tie : "200000000000011".toList.all (isDigitIn 16) ∧
    ¬ IsNearest (radixValue 16 "200000000000011".toList) (readRadix 16 "200000000000011".toList) := by
  rw [isNearest_iff]
  decide +kernel

end TemplateExpr
