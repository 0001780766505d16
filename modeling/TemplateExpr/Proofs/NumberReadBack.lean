import Mathlib.Algebra.Field.Rat
import TemplateExpr.Proofs.NumeralGrammar
import TemplateExpr.Proofs.StrictEquality

/-!
# Number texts are read back

The text of a number in rendered output, coerced to a number, is that number again, but for the sign of a zero.  Its
digits are those of the shortest decimal that reads back, so the text denotes just that decimal, and the place of the
point alone decides whether a power of ten is written.
-/

namespace TemplateExpr

/-! ### The value of a text -/

namespace Numeral

/-- The exact value of a numeral. -/
def value (n : Numeral) : ℚ := n.significand * 10 ^ n.scale

/-- The value of digits in scientific notation, with the point behind the first of them. -/
def scientificValue (digits : List Char) (exponent : Int) : ℚ :=
  natOfDigits digits * 10 ^ (exponent - ((digits.length : Int) - 1))

theorem Denotes.value_eq {n : Numeral} {digits : Nat} {exponent : Int} (h : n.Denotes digits exponent) :
    n.value = digits * 10 ^ exponent := by
  obtain ⟨zeros, significand, scale⟩ := h
  have ten : (10 : ℚ) ≠ 0 := by decide
  have split : (10 : ℚ) ^ exponent = 10 ^ zeros * 10 ^ (exponent - zeros) := by
    rw [← zpow_natCast, ← zpow_add₀ ten]
    congr 1
    omega
  rw [value, significand, scale, split, Nat.cast_mul, Nat.cast_pow, Nat.cast_ofNat, mul_assoc]

theorem mem_text_iff (n : Numeral) (plus : Bool) : 'e' ∈ n.text plus ↔ n.exponent ≠ none := by
  have digits {cs : List Char} (h : ∀ c ∈ cs, c.isDigit) : 'e' ∉ cs := fun mem => absurd (h 'e' mem) (by decide)
  have fraction : 'e' ∉ n.fractionText := by
    unfold fractionText
    cases hf : n.fraction with
    | none => exact List.not_mem_nil
    | some cs =>
      rw [List.mem_cons, not_or]
      exact ⟨by decide, digits (n.fraction_digits cs hf).all⟩
  rw [text, List.mem_append, List.mem_append, or_iff_right (digits n.whole_digits.all), or_iff_right fraction]
  unfold exponentText
  cases n.exponent with
  | none => exact iff_of_false List.not_mem_nil fun h => h rfl
  | some power => exact iff_of_true List.mem_cons_self fun h => by cases h

theorem positional_exponent {digits : List Char} (h : IsDigits digits) (point : Int) (wholeFraction : Bool) :
    (positional digits h point wholeFraction).exponent = none := by
  unfold positional
  split
  · split <;> rfl
  · rfl
  · rfl

theorem scientific_exponent {digits : List Char} (h : IsDigits digits) (point : Int) :
    (scientific digits h point).exponent = some (point - 1) := by
  cases digits with
  | nil => exact absurd rfl h.ne_nil
  | cons d rest => cases rest <;> rfl

end Numeral

namespace Decimal

theorem numeral_exponent_iff (style : Layout) (d : Decimal) :
    (d.numeral style).exponent ≠ none ↔ ¬ (style.least < d.point ∧ d.point ≤ style.most) := by
  unfold numeral
  split
  · rename_i within
    exact iff_of_false (fun h => h (Numeral.positional_exponent ..)) fun h => h within
  · rename_i beyond
    rw [Numeral.scientific_exponent]
    exact iff_of_true (fun h => by cases h) beyond

theorem numeral_value (style : Layout) (d : Decimal) :
    (d.numeral style).value = Numeral.scientificValue d.text (d.point - 1) := by
  have digits : natOfDigits d.text = d.digits := natOfDigits_toDigits d.digits
  have exponent : d.point - 1 - ((d.text.length : Int) - 1) = d.exponent := by
    rw [point]
    omega
  rw [(numeral_denotes style d).value_eq, Numeral.scientificValue, digits, exponent]

end Decimal

namespace Double

/-! ### Signed numerals -/

theorem readDecimal?_minus {cs : List Char} (h : splitSign cs = (false, cs)) :
    readDecimal? ('-' :: cs) = (readDecimal? cs).map neg := by
  have split : splitSign ('-' :: cs) = (true, cs) := rfl
  simp only [readDecimal?, split, h, ofDecimal_neg, apply_ite (Option.map neg), Option.map_none, Option.map_map]
  rfl

theorem readDecimal?_signed (negative : Bool) (n : Numeral) (plus : Bool) :
    readDecimal? (signText negative ++ n.text plus) = some (ofDecimal negative n.significand n.scale) := by
  cases negative with
  | false => exact readDecimal?_text n plus
  | true =>
    have sign : signText true ++ n.text plus = '-' :: n.text plus := rfl
    rw [sign, readDecimal?_minus (splitSign_numeral n plus), readDecimal?_text, ofDecimal_neg]
    rfl

theorem readTrimmed_of_readDecimal? {cs : List Char} {x : Double} (h : readDecimal? cs = some x) :
    readTrimmed cs = x := by
  have other {cs' : List Char} (none : readDecimal? cs' = none) : cs ≠ cs' := by
    rintro rfl
    rw [none] at h
    cases h
  have positive : ¬ (cs = "Infinity".toList ∨ cs = "+Infinity".toList) := not_or.2 ⟨other rfl, other rfl⟩
  rw [readTrimmed_plain (other rfl) fun mark radix digits hm => other (readDecimal?_radix hm digits),
    if_neg positive, if_neg (other rfl), h]
  rfl

theorem isNumeral_of_readDecimal? {cs : List Char} {x : Double} (h : readDecimal? cs = some x) : IsNumeral cs :=
  isNumeral_iff.2 (.inr (.inr (.inr (by rw [h]; rfl))))

theorem ofText_of_readDecimal? {s : String} {x : Double} (h : readDecimal? s.toList = some x) : ofText s = x := by
  have text : s.toList = [] ++ (s.toList ++ []) := (List.append_nil _).symm
  rw [ofText_around text (List.forall_mem_nil _) (List.forall_mem_nil _) (isNumeral_of_readDecimal? h).chars,
    readTrimmed_of_readDecimal? h]

/-! ### Texts of numbers -/

theorem ofText_text (x : Double) : ofText x.text = if x.isZero then zero else x := by
  cases x with
  | nan => decide
  | signed negative rank bound =>
    by_cases infinite : rank = infinityRank
    · subst infinite
      show ofText (infinity negative).text = infinity negative
      cases negative <;> decide
    by_cases none : rank = 0
    · subst none
      show ofText (String.ofList ['0']) = zero
      decide
    · have finite : rank < infinityRank := Nat.lt_of_le_of_ne bound infinite
      have zero : (signed negative rank bound).isZero = false := beq_eq_false_iff_ne.2 none
      rw [zero, if_neg Bool.false_ne_true]
      apply ofText_of_readDecimal?
      rw [text, String.toList_ofList, textChars_finite none finite, readDecimal?_signed, ofDecimal_numeral .template .up negative finite]

theorem equals_readBack {x : Double} (h : x ≠ nan) : x.equals (ofText x.text) := by
  rw [ofText_text]
  split
  · rename_i none
    cases x with
    | nan => cases none
    | signed negative rank bound =>
      have none : rank = 0 := beq_iff_eq.1 none
      subst none
      exact equals_iff.2 ⟨0, by cases negative <;> rfl, rfl⟩
  · exact equals_self_iff.2 h

/-- The text of a number reads back; no two numbers that differ have the same text, and NaN keeps to itself.  A finite
number that is not zero is written as the decimal that its shortest digits make in scientific notation, as
`d.ddd` times a power of ten; and the power is written out where the point is not between -5 and 21. -/
theorem text_reads_back (x : Double) :
    ofText x.text = (if x.isZero then zero else x) ∧
    (∀ y : Double, x ≠ nan → y ≠ nan → x.text = y.text → x.equals y) ∧
    ∀ negative rank bound, x = signed negative rank bound → rank ≠ 0 → rank < infinityRank →
      ∃ n : Numeral, x.text.toList = signText negative ++ n.text true ∧
        n.value = Numeral.scientificValue (shortest .up rank).text ((shortest .up rank).point - 1) ∧
        ('e' ∉ x.text.toList ↔ -5 ≤ (shortest .up rank).point ∧ (shortest .up rank).point ≤ 21) := by
  refine ⟨ofText_text x, fun y hx hy same => ?_, ?_⟩
  · have read := equals_readBack hx
    rw [same] at read
    exact equals_trans read (equals_comm y _ ▸ equals_readBack hy)
  · rintro negative rank bound rfl positive finite
    have chars : (signed negative rank bound).textChars = _ := textChars_finite positive finite
    rw [text, String.toList_ofList]
    refine ⟨(shortest .up rank).numeral .template, chars, Decimal.numeral_value .template _, ?_⟩
    have sign : 'e' ∉ signText negative := by cases negative <;> decide
    have power := Decimal.numeral_exponent_iff .template (shortest .up rank)
    rw [chars, List.mem_append, or_iff_right sign, Numeral.mem_text_iff, power, not_not]
    exact and_congr_left fun _ => Int.lt_iff_add_one_le

/-- The number -2.5e-7. -/
def smallNegative : Double := signed true 4508321993853365645 (by decide)

theorem text_reads_back_small : ofText smallNegative.text = smallNegative ∧ 'e' ∈ smallNegative.text.toList ∧
    ∃ n : Numeral, smallNegative.text.toList = '-' :: n.text true ∧ n.value = Numeral.scientificValue ['2', '5'] (-7) := by
  obtain ⟨read, -, exact⟩ := text_reads_back smallNegative
  obtain ⟨n, text, value, plain⟩ := exact true _ _ rfl (by decide) (by decide)
  have digits : (shortest .up 4508321993853365645).text = ['2', '5'] := by decide +kernel
  have point : (shortest .up 4508321993853365645).point = -6 := by decide +kernel
  rw [point] at value plain
  rw [digits] at value
  have power : 'e' ∈ smallNegative.text.toList := by
    by_contra none
    exact absurd (plain.1 none).1 (by decide)
  exact ⟨read, power, n, text, value⟩

end Double

end TemplateExpr
