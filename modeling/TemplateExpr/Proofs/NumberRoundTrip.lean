import TemplateExpr.Proofs.DecimalValue
import TemplateExpr.Proofs.NumberText

/-!
# Number texts read back

The text of a finite number is a numeral that denotes the number: zeros that a layout adds change neither the
value nor the double.
-/

namespace TemplateExpr

/-! ### The value of a numeral -/

theorem head_toDigits {n : Nat} (h : n ≠ 0) : (Nat.toDigits 10 n).head? ≠ some '0' := by
  induction n using Nat.base_induction 10 (by decide) with
  | single m small =>
    rw [Nat.toDigits_of_lt_base small, List.head?_cons, Ne, Option.some.injEq, Nat.digitChar_eq_zero]
    exact h
  | digit m k small positive ih =>
    rw [← Nat.toDigits_append_toDigits (by decide) positive small,
      List.head?_append, Option.or_of_isSome (by rw [List.isSome_head?]; exact Nat.toDigits_ne_nil)]
    exact ih (Nat.pos_iff_ne_zero.1 positive)

theorem natOfDigits_append_zeros (cs : List Char) (n : Nat) :
    natOfDigits (cs ++ List.replicate n '0') = natOfDigits cs * 10 ^ n := by
  rw [natOfDigits, Nat.ofDigitChars_append, Nat.ofDigitChars_replicate_zero, Nat.mul_comm]
  rfl

theorem natOfDigits_zeros_append (cs : List Char) (n : Nat) :
    natOfDigits (List.replicate n '0' ++ cs) = natOfDigits cs := by
  rw [natOfDigits, Nat.ofDigitChars_append, Nat.ofDigitChars_replicate_zero, Nat.mul_zero]
  rfl

namespace Numeral

/-- The digits of a numeral as a whole number. -/
def significand (n : Numeral) : Nat := natOfDigits (n.whole ++ n.fraction.getD [])

/-- The power of ten that the significand is taken times. -/
def scale (n : Numeral) : Int := n.exponent.getD 0 - (n.fraction.getD []).length

/-- A numeral denotes a decimal, but for zeros at the end of its digits. -/
def Denotes (n : Numeral) (digits : Nat) (exponent : Int) : Prop :=
  ∃ zeros : Nat, n.significand = digits * 10 ^ zeros ∧ n.scale = exponent - zeros

theorem positional_denotes {digits : List Char} (h : IsDigits digits) (exponent : Int)
    (wholeFraction : Bool) {point : Int} (hp : point = digits.length + exponent) :
    (positional digits h point wholeFraction).Denotes (natOfDigits digits) exponent := by
  -- The point stands behind the digits, among them or in front of them; only the first adds zeros that count.
  match point with
  | .ofNat (n + 1) =>
    have point_eq : ((n + 1 : Nat) : Int) = digits.length + exponent := hp
    by_cases hn : digits.length ≤ n + 1
    · obtain ⟨zeros, hz⟩ : ∃ zeros, zeros = n + 1 - digits.length := ⟨_, rfl⟩
      have exponent_eq : exponent = zeros := by omega
      cases wholeFraction with
      | true =>
        refine ⟨zeros + 1, ?_, ?_⟩
        · simp only [positional, hn, dite_true, significand, if_true, Option.getD_some, ← hz,
            List.append_assoc, ← List.replicate_succ', natOfDigits_append_zeros]
        · simp only [positional, hn, dite_true, if_true, scale, exponent_eq, Option.getD_none, Option.getD_some,
            List.length_singleton]
          omega
      | false =>
        refine ⟨zeros, ?_, ?_⟩
        · simp [positional, hn, significand, ← hz, natOfDigits_append_zeros]
        · simp [positional, hn, scale, exponent_eq]
    · refine ⟨0, ?_, ?_⟩
      · simp [positional, hn, significand]
      · simp [positional, hn, scale]
        omega
  | .ofNat 0 =>
    have point_eq : ((0 : Nat) : Int) = digits.length + exponent := hp
    refine ⟨0, ?_, ?_⟩
    · simp only [positional, significand, Option.getD_some, Nat.pow_zero, Nat.mul_one]
      exact natOfDigits_zeros_append digits 1
    · simp [positional, scale]
      omega
  | .negSucc n =>
    refine ⟨0, ?_, ?_⟩
    · simp only [positional, significand, Option.getD_some, Nat.pow_zero, Nat.mul_one]
      exact natOfDigits_zeros_append digits (n + 2)
    · simp [positional, scale]
      omega

theorem scientific_denotes {digits : List Char} (h : IsDigits digits) (exponent : Int) {point : Int}
    (hp : point = digits.length + exponent) :
    (scientific digits h point).Denotes (natOfDigits digits) exponent := by
  refine ⟨0, ?_, ?_⟩
  · rw [Nat.pow_zero, Nat.mul_one]
    match digits, h with
    | [], h => exact absurd rfl h.ne_nil
    | [d], h => rfl
    | d :: e :: rest, h => rfl
  · match digits, h with
    | [], h => exact absurd rfl h.ne_nil
    | [d], h =>
      simp only [scientific, scale, hp, Option.getD_some, Option.getD_none, List.length_nil,
        List.length_singleton]
      omega
    | d :: e :: rest, h =>
      simp only [scientific, scale, hp, Option.getD_some, List.length_cons]
      omega

/-- A zero stands in front of a numeral only as its one whole digit. -/
def NoLeadingZero (n : Numeral) : Prop := n.whole = ['0'] ∨ n.whole.head? ≠ some '0'

theorem positional_noLeadingZero {digits : List Char} (h : IsDigits digits) (head : digits.head? ≠ some '0')
    (point : Int) (wholeFraction : Bool) : (positional digits h point wholeFraction).NoLeadingZero := by
  obtain ⟨d, rest, rfl⟩ := List.exists_cons_of_ne_nil h.ne_nil
  match point with
  | .ofNat (n + 1) =>
    right
    simp only [positional]
    split
    · exact head
    · exact head
  | .ofNat 0 => exact .inl rfl
  | .negSucc n => exact .inl rfl

theorem scientific_noLeadingZero {digits : List Char} (h : IsDigits digits) (head : digits.head? ≠ some '0')
    (point : Int) : (scientific digits h point).NoLeadingZero := by
  right
  match digits, h with
  | [], h => exact absurd rfl h.ne_nil
  | [d], h => exact head
  | d :: e :: rest, h => exact head

theorem Denotes.ofDecimal {n : Numeral} {digits : Nat} {exponent : Int} (h : n.Denotes digits exponent)
    (negative : Bool) :
    Double.ofDecimal negative n.significand n.scale = Double.ofDecimal negative digits exponent := by
  obtain ⟨zeros, significand, scale⟩ := h
  rw [significand, scale, Double.ofDecimal_shift]

end Numeral

namespace Decimal

theorem numeral_denotes (style : Layout) (d : Decimal) : (d.numeral style).Denotes d.digits d.exponent := by
  have digits : natOfDigits d.text = d.digits := natOfDigits_toDigits d.digits
  unfold numeral
  split
  · have := Numeral.positional_denotes d.text_digits d.exponent style.wholeFraction rfl
    rwa [digits] at this
  · have := Numeral.scientific_denotes d.text_digits d.exponent rfl
    rwa [digits] at this

theorem numeral_noLeadingZero (style : Layout) {d : Decimal} (h : d.digits ≠ 0) :
    (d.numeral style).NoLeadingZero := by
  have head : d.text.head? ≠ some '0' := head_toDigits h
  unfold numeral
  split
  · exact Numeral.positional_noLeadingZero d.text_digits head _ _
  · exact Numeral.scientific_noLeadingZero d.text_digits head _

end Decimal

namespace Double

/-- In every layout a finite number is a numeral that denotes it. -/
theorem ofDecimal_numeral (style : Layout) (tie : Tie) (negative : Bool) {rank : Nat} (finite : rank < infinityRank) :
    ofDecimal negative ((shortest tie rank).numeral style).significand ((shortest tie rank).numeral style).scale =
      signed negative rank (Nat.le_of_lt finite) := by
  have read := readsAs_iff.1 (readsAs_shortest tie finite)
  rw [ofRank_eq_signed (Nat.le_of_lt finite)] at read
  rw [(Decimal.numeral_denotes style _).ofDecimal]
  cases negative with
  | false => exact read
  | true =>
    rw [ofDecimal_neg, read]
    rfl

theorem textChars_finite {negative : Bool} {rank : Nat} {bound : rank ≤ infinityRank} (nonzero : rank ≠ 0)
    (finite : rank < infinityRank) : (signed negative rank bound).textChars =
      signText negative ++ ((shortest .up rank).numeral .template).text true := by
  simp only [textChars, if_neg (Nat.ne_of_lt finite), if_neg nonzero]
  exact congrArg (signText negative ++ ·) (Decimal.text_numeral .template _).symm

/-- The text of a finite number that is not negative is a numeral that denotes it. -/
theorem textChars_numeral {x : Double} (finite : x.isFinite) (sign : x.isNegative = false) :
    ∃ n : Numeral, x.textChars = n.text true ∧ ofDecimal false n.significand n.scale = x ∧
      n.NoLeadingZero := by
  cases x with
  | nan => cases finite
  | signed negative rank bound =>
    have bounded : rank < infinityRank := of_decide_eq_true finite
    have sign : negative = false := sign
    subst sign
    by_cases zero : rank = 0
    · subst zero
      exact ⟨⟨['0'], none, none, .zero, nofun⟩, rfl, rfl, .inl rfl⟩
    · exact ⟨(shortest .up rank).numeral .template, textChars_finite zero bounded,
        ofDecimal_numeral .template .up false bounded,
        Decimal.numeral_noLeadingZero .template (shortest_digits_ne_zero .up bounded zero)⟩

/-! ### Decimal numerals -/

theorem readExponent?_exponentText (n : Numeral) (plus : Bool) :
    readExponent? (n.exponentText plus) = some (n.exponent.getD 0) := by
  unfold Numeral.exponentText
  cases he : n.exponent with
  | none => rfl
  | some power =>
    have hd : IsDigits (Nat.toDigits 10 power.natAbs) := .toDigits _
    have sign := Numeral.splitSign_powerText plus power []
    rw [List.append_nil, List.append_nil] at sign
    have some_digit : (Nat.toDigits 10 power.natAbs).isEmpty = false :=
      List.isEmpty_eq_false_iff.2 hd.ne_nil
    have all_digits : (Nat.toDigits 10 power.natAbs).all Char.isDigit := List.all_eq_true.2 hd.all
    have value := Numeral.signed_natOfDigits power
    simp only [readExponent?, true_or, if_true, sign, some_digit, all_digits, Bool.not_true, Bool.or_self,
      Bool.false_eq_true, if_false, Option.getD_some]
    exact (apply_ite some _ _ _).symm.trans (congrArg some value)

theorem splitSign_numeral (n : Numeral) (plus : Bool) : splitSign (n.text plus) = (false, n.text plus) := by
  obtain ⟨d, digits, hd⟩ := List.exists_cons_of_ne_nil n.whole_digits.ne_nil
  have first : d.isDigit := n.whole_digits.all d (hd ▸ List.mem_cons_self)
  rw [Numeral.text, hd, List.cons_append]
  exact Numeral.splitSign_digit first _

theorem readDecimal?_text (n : Numeral) (plus : Bool) :
    readDecimal? (n.text plus) = some (ofDecimal false n.significand n.scale) := by
  have sign := splitSign_numeral n plus
  have ends : EndsNumeral [] := fun c hc => absurd hc (Option.not_mem_none c)
  have wholeEnd := n.fractionText_head plus ends
  have fractionEnd := n.exponentText_head plus ends
  rw [List.append_nil] at wholeEnd fractionEnd
  have take : (n.text plus).takeWhile Char.isDigit = n.whole := takeWhile_run n.whole_digits.all wholeEnd
  have drop : (n.text plus).dropWhile Char.isDigit = n.fractionText ++ n.exponentText plus :=
    dropWhile_run n.whole_digits.all wholeEnd
  have some_digit : n.whole.isEmpty = false := List.isEmpty_eq_false_iff.2 n.whole_digits.ne_nil
  have exponent := readExponent?_exponentText n plus
  simp only [readDecimal?, sign, take, drop, some_digit, Bool.false_and, Bool.false_eq_true, if_false,
    Numeral.significand, Numeral.scale, Numeral.fractionText]
  cases hf : n.fraction with
  | some fraction =>
    have hd := n.fraction_digits fraction hf
    have take' := takeWhile_run hd.all fun c hc => (fractionEnd c hc).1
    have drop' := dropWhile_run hd.all fun c hc => (fractionEnd c hc).1
    simp only [List.cons_append, take', drop', exponent]
    rfl
  | none =>
    rw [List.nil_append]
    -- The reader looks for a point right here, where the exponent or nothing stands.
    generalize n.exponentText plus = after at exponent fractionEnd
    split
    · exact absurd rfl (fractionEnd '.' rfl).2
    · rw [exponent]
      rfl

end Double

end TemplateExpr
