import TemplateExpr.Proofs.NumeralExtent
import TemplateExpr.Proofs.RadixDigits

/-!
# The grammar of numerals

Which texts denote a number.  A text that is no numeral is read as NaN, and no numeral is: the double of a decimal
or radix numeral may be zero or infinity, but it is a number.
-/

namespace TemplateExpr

/-! ### The grammar -/

inductive IsSign : List Char → Prop where
  | none : IsSign []
  | plus : IsSign ['+']
  | minus : IsSign ['-']

/-- Digits, perhaps with a point among, before or behind them. -/
inductive IsMantissa : List Char → Prop where
  | whole {digits : List Char} (h : IsDigits digits) : IsMantissa digits
  | fraction {whole digits : List Char} (h : IsDigits whole) (rest : ∀ c ∈ digits, c.isDigit) :
    IsMantissa (whole ++ '.' :: digits)
  | point {digits : List Char} (h : IsDigits digits) : IsMantissa ('.' :: digits)

/-- Nothing, or an `e` in either case with a signed whole number. -/
inductive IsExponent : List Char → Prop where
  | none : IsExponent []
  | power {e : Char} {sign digits : List Char} (letter : e = 'e' ∨ e = 'E') (hs : IsSign sign)
    (h : IsDigits digits) : IsExponent (e :: (sign ++ digits))

/-- The letters that announce a radix. -/
def radixMarks : List (Char × Nat) := [('x', 16), ('X', 16), ('o', 8), ('O', 8), ('b', 2), ('B', 2)]

/-- The texts that denote a number where no blanks are around them. -/
inductive IsNumeral : List Char → Prop where
  | empty : IsNumeral []
  | radix {mark : Char} {radix : Nat} {digits : List Char} (hm : (mark, radix) ∈ radixMarks)
    (ne_nil : digits ≠ []) (valid : ∀ c ∈ digits, isDigitIn radix c) : IsNumeral ('0' :: mark :: digits)
  | infinity {sign : List Char} (hs : IsSign sign) : IsNumeral (sign ++ "Infinity".toList)
  | decimal {sign mantissa exponent : List Char} (hs : IsSign sign) (hm : IsMantissa mantissa)
    (he : IsExponent exponent) : IsNumeral (sign ++ (mantissa ++ exponent))

/-! ### Signs -/

theorem exists_sign (cs : List Char) : ∃ sign, IsSign sign ∧ cs = sign ++ (Double.splitSign cs).2 := by
  unfold Double.splitSign
  split
  · exact ⟨['-'], .minus, rfl⟩
  · exact ⟨['+'], .plus, rfl⟩
  · exact ⟨[], .none, rfl⟩

theorem splitSign_append {sign body : List Char} (hs : IsSign sign)
    (head : ∀ c ∈ body.head?, c ≠ '-' ∧ c ≠ '+') : (Double.splitSign (sign ++ body)).2 = body := by
  cases hs with
  | plus => rfl
  | minus => rfl
  | none =>
    rw [List.nil_append]
    unfold Double.splitSign
    split
    · exact absurd rfl (head '-' rfl).1
    · exact absurd rfl (head '+' rfl).2
    · rfl

theorem ne_of_isDigit {c d : Char} (h : c.isDigit) (hd : d.isDigit = false) : c ≠ d := by
  rintro rfl
  rw [h] at hd
  cases hd

theorem IsDigits.head_ne {digits : List Char} (h : IsDigits digits) {d : Char} (hd : d.isDigit = false) :
    ∀ c ∈ digits.head?, c ≠ d :=
  fun c hc => ne_of_isDigit (h.all c (List.mem_of_mem_head? hc)) hd

theorem IsMantissa.head {mantissa : List Char} (h : IsMantissa mantissa) :
    ∃ c rest, mantissa = c :: rest ∧ (c.isDigit ∨ c = '.') := by
  cases h with
  | whole h =>
    obtain ⟨c, rest, rfl⟩ := List.exists_cons_of_ne_nil h.ne_nil
    exact ⟨c, rest, rfl, .inl h.head⟩
  | @fraction whole digits h rest =>
    obtain ⟨c, after, rfl⟩ := List.exists_cons_of_ne_nil h.ne_nil
    exact ⟨c, _, rfl, .inl h.head⟩
  | point h => exact ⟨'.', _, rfl, .inr rfl⟩

theorem splitSign_mantissa {sign mantissa : List Char} (hs : IsSign sign) (hm : IsMantissa mantissa)
    (tail : List Char) : (Double.splitSign (sign ++ (mantissa ++ tail))).2 = mantissa ++ tail := by
  obtain ⟨c, rest, rfl, first⟩ := hm.head
  refine splitSign_append hs fun d hd => ?_
  cases hd
  obtain digit | rfl := first
  · exact ⟨ne_of_isDigit digit rfl, ne_of_isDigit digit rfl⟩
  · decide

/-! ### Exponents -/

theorem IsExponent.head {exponent : List Char} (h : IsExponent exponent) :
    ∀ c ∈ exponent.head?, c.isDigit = false ∧ c ≠ '.' := by
  cases h with
  | none => exact fun c hc => absurd hc (Option.not_mem_none c)
  | power letter hs h =>
    intro c hc
    cases hc
    obtain rfl | rfl := letter <;> decide

theorem readExponent?_power {e : Char} {rest : List Char} (letter : e = 'e' ∨ e = 'E') :
    (Double.readExponent? (e :: rest)).isSome ↔ IsDigits (Double.splitSign rest).2 := by
  rw [Double.readExponent?, if_pos letter]
  generalize Double.splitSign rest = parts
  obtain ⟨negative, digits⟩ := parts
  dsimp only
  have digits_iff : (digits.isEmpty || !digits.all Char.isDigit) = false ↔ IsDigits digits := by
    rw [Bool.or_eq_false_iff, List.isEmpty_eq_false_iff, Bool.not_eq_false', List.all_eq_true]
    exact ⟨fun h => ⟨h.1, h.2⟩, fun h => ⟨h.ne_nil, h.all⟩⟩
  rw [← digits_iff]
  generalize (digits.isEmpty || !digits.all Char.isDigit) = bad
  cases bad <;> cases negative <;> simp

theorem readExponent?_isSome_iff {cs : List Char} :
    (Double.readExponent? cs).isSome ↔ IsExponent cs := by
  constructor
  · intro read
    cases cs with
    | nil => exact .none
    | cons e rest =>
      by_cases letter : e = 'e' ∨ e = 'E'
      · obtain ⟨sign, hs, split⟩ := exists_sign rest
        rw [split]
        exact .power letter hs ((readExponent?_power letter).1 read)
      · rw [Double.readExponent?, if_neg letter] at read
        cases read
  · intro exponent
    cases exponent with
    | none => rfl
    | power letter hs h =>
      rw [readExponent?_power letter, splitSign_append hs fun c hc => ⟨h.head_ne rfl c hc, h.head_ne rfl c hc⟩]
      exact h

/-! ### Decimal numerals -/

theorem readDecimal?_point {cs whole fraction tail : List Char}
    (split : (Double.splitSign cs).2 = whole ++ '.' :: (fraction ++ tail)) (hw : ∀ c ∈ whole, c.isDigit)
    (hf : ∀ c ∈ fraction, c.isDigit) (ht : ∀ c ∈ tail.head?, c.isDigit = false) :
    (Double.readDecimal? cs).isSome ↔ (whole ≠ [] ∨ fraction ≠ []) ∧ IsExponent tail := by
  have point : ∀ c ∈ ('.' :: (fraction ++ tail)).head?, c.isDigit = false := by
    intro c hc
    cases hc
    rfl
  have take := takeWhile_run hw point
  have drop := dropWhile_run hw point
  have take' := takeWhile_run hf ht
  have drop' := dropWhile_run hf ht
  rw [← readExponent?_isSome_iff]
  unfold Double.readDecimal?
  generalize Double.splitSign cs = parts at split ⊢
  obtain ⟨negative, body⟩ := parts
  dsimp only at split ⊢
  rw [split, take, drop]
  simp only [take', drop']
  cases whole <;> cases fraction <;> simp

theorem readDecimal?_whole {cs whole tail : List Char} (split : (Double.splitSign cs).2 = whole ++ tail)
    (hw : ∀ c ∈ whole, c.isDigit) (ht : ∀ c ∈ tail.head?, c.isDigit = false ∧ c ≠ '.') :
    (Double.readDecimal? cs).isSome ↔ whole ≠ [] ∧ IsExponent tail := by
  have take := takeWhile_run hw fun c hc => (ht c hc).1
  have drop := dropWhile_run hw fun c hc => (ht c hc).1
  rw [← readExponent?_isSome_iff]
  unfold Double.readDecimal?
  generalize Double.splitSign cs = parts at split ⊢
  obtain ⟨negative, body⟩ := parts
  dsimp only at split ⊢
  rw [split, take, drop]
  split
  · exact absurd rfl (ht '.' rfl).2
  · cases whole <;> simp

theorem readDecimal?_isSome_iff {cs : List Char} : (Double.readDecimal? cs).isSome ↔
    ∃ sign mantissa exponent, cs = sign ++ (mantissa ++ exponent) ∧ IsSign sign ∧ IsMantissa mantissa ∧
      IsExponent exponent := by
  constructor
  · intro read
    obtain ⟨sign, hs, text⟩ := exists_sign cs
    generalize split : (Double.splitSign cs).2 = body at text
    -- The reader takes all digits there are, so what stands behind them is a point or the exponent.
    obtain ⟨whole, after, rfl, hw, ha⟩ := exists_run Char.isDigit body
    by_cases point : after.head? = some '.'
    · obtain ⟨rest, rfl⟩ := List.head?_eq_some_iff.1 point
      obtain ⟨fraction, tail, rfl, hf, ht⟩ := exists_run Char.isDigit rest
      obtain ⟨digits, exponent⟩ := (readDecimal?_point split hw hf ht).1 read
      refine ⟨sign, whole ++ '.' :: fraction, tail, ?_, hs, ?_, exponent⟩
      · rw [text, List.append_assoc whole, List.cons_append]
      · by_cases none : whole = []
        · subst none
          exact .point ⟨digits.resolve_left (absurd rfl), hf⟩
        · exact .fraction ⟨none, hw⟩ hf
    · have head : ∀ c ∈ after.head?, c.isDigit = false ∧ c ≠ '.' := by
        refine fun c hc => ⟨ha c hc, ?_⟩
        rintro rfl
        exact point hc
      obtain ⟨some_digit, exponent⟩ := (readDecimal?_whole split hw head).1 read
      exact ⟨sign, whole, after, text, hs, .whole ⟨some_digit, hw⟩, exponent⟩
  · rintro ⟨sign, mantissa, exponent, rfl, hs, hm, he⟩
    have split := splitSign_mantissa hs hm exponent
    cases hm with
    | whole h => exact (readDecimal?_whole split h.all he.head).2 ⟨h.ne_nil, he⟩
    | @fraction whole digits h rest =>
      have parts : whole ++ '.' :: digits ++ exponent = whole ++ '.' :: (digits ++ exponent) := by
        rw [List.append_assoc, List.cons_append]
      rw [parts] at split ⊢
      exact (readDecimal?_point split h.all rest fun c hc => (he.head c hc).1).2 ⟨.inl h.ne_nil, he⟩
    | @point digits h =>
      have bare : (Double.splitSign (sign ++ ('.' :: digits ++ exponent))).2 = [] ++ '.' :: (digits ++ exponent) :=
        split
      exact (readDecimal?_point bare (List.forall_mem_nil _) h.all fun c hc => (he.head c hc).1).2
        ⟨.inr h.ne_nil, he⟩

/-! ### Texts that are not NaN -/

theorem ofRatio_ne_nan (negative : Bool) (num den : Nat) : Double.ofRatio negative num den ≠ .nan := by
  intro h
  cases h

theorem readDecimal?_ne_nan {cs : List Char} {x : Double} (h : Double.readDecimal? cs = some x) : x ≠ .nan := by
  obtain ⟨exponent, -, rfl⟩ := Option.map_eq_some_iff.1 (Option.ite_none_left_eq_some.1 h).2
  rw [Double.ofDecimal_eq_ofRatio]
  exact ofRatio_ne_nan _ _ _

theorem mem_radixMarks_iff {mark : Char} {radix : Nat} :
    (mark, radix) ∈ radixMarks ↔ Double.radixOfLetter? mark = some radix := by
  constructor
  · intro h
    simp only [radixMarks, List.mem_cons, List.not_mem_nil, or_false, Prod.mk.injEq] at h
    obtain ⟨rfl, rfl⟩ | ⟨rfl, rfl⟩ | ⟨rfl, rfl⟩ | ⟨rfl, rfl⟩ | ⟨rfl, rfl⟩ | ⟨rfl, rfl⟩ := h <;> rfl
  · intro h
    unfold Double.radixOfLetter? at h
    split at h
    all_goals cases h
    all_goals decide

theorem exists_two_pow {mark : Char} {radix : Nat} (h : (mark, radix) ∈ radixMarks) :
    ∃ k, 0 < k ∧ k ≤ 4 ∧ radix = 2 ^ k := by
  have all : ∀ entry ∈ radixMarks, entry.2 ∈ [2 ^ 1, 2 ^ 3, 2 ^ 4] := by decide
  have power := all _ h
  simp only [List.mem_cons, List.not_mem_nil, or_false] at power
  obtain rfl | rfl | rfl := power
  · exact ⟨1, by decide, by decide, rfl⟩
  · exact ⟨3, by decide, by decide, rfl⟩
  · exact ⟨4, by decide, by decide, rfl⟩

theorem foldRadix_eq_none {radix : Nat} {digits : List Char} (h : ∃ c ∈ digits, isDigitIn radix c = false)
    (x : Double) : Double.foldRadix radix x digits = none := by
  induction digits generalizing x with
  | nil => simp at h
  | cons c rest ih =>
    unfold Double.foldRadix
    cases hd : digitValue? radix c with
    | none => rfl
    | some d =>
      apply ih
      obtain ⟨bad, mem, hbad⟩ := h
      obtain rfl | mem := List.mem_cons.1 mem
      · rw [isDigitIn, hd] at hbad
        cases hbad
      · exact ⟨bad, mem, hbad⟩

theorem readRadix_ne_nan_iff {mark : Char} {radix : Nat} (hm : (mark, radix) ∈ radixMarks) {digits : List Char} :
    Double.readRadix radix digits ≠ .nan ↔ digits ≠ [] ∧ ∀ c ∈ digits, isDigitIn radix c := by
  obtain ⟨k, positive, bound, rfl⟩ := exists_two_pow hm
  constructor
  · intro number
    have ne_nil : digits ≠ [] := by
      rintro rfl
      exact number rfl
    refine ⟨ne_nil, fun c hc => ?_⟩
    by_contra bad
    have none := foldRadix_eq_none ⟨c, hc, Bool.eq_false_iff.2 bad⟩ .zero
    rw [Double.readRadix, none] at number
    exact number (ite_self _)
  · rintro ⟨ne_nil, valid⟩
    rw [Double.readRadix_eq positive bound ne_nil valid]
    exact ofRatio_ne_nan _ _ _

theorem readDecimal?_radix {mark : Char} {radix : Nat} (hm : (mark, radix) ∈ radixMarks) (digits : List Char) :
    Double.readDecimal? ('0' :: mark :: digits) = none := by
  have all : ∀ entry ∈ radixMarks,
      entry.1.isDigit = false ∧ entry.1 ≠ '.' ∧ entry.1 ≠ 'e' ∧ entry.1 ≠ 'E' := by decide
  obtain ⟨no_digit, no_point, no_e, no_E⟩ := all _ hm
  have tail : ∀ c ∈ (mark :: digits).head?, c.isDigit = false ∧ c ≠ '.' := by
    intro c hc
    cases hc
    exact ⟨no_digit, no_point⟩
  have zero : ∀ c ∈ ['0'], c.isDigit := List.forall_mem_singleton.2 rfl
  have exponent : ¬ IsExponent (mark :: digits) := by
    rw [← readExponent?_isSome_iff, Double.readExponent?, if_neg (not_or.2 ⟨no_e, no_E⟩)]
    exact Bool.false_ne_true
  have split : (Double.splitSign ('0' :: mark :: digits)).2 = ['0'] ++ mark :: digits := rfl
  rw [← Option.not_isSome_iff_eq_none, readDecimal?_whole split zero tail]
  exact fun h => exponent h.2

theorem infinity_iff {cs : List Char} :
    (cs = "Infinity".toList ∨ cs = "+Infinity".toList) ∨ cs = "-Infinity".toList ↔
      ∃ sign, IsSign sign ∧ cs = sign ++ "Infinity".toList := by
  constructor
  · rintro ((rfl | rfl) | rfl)
    · exact ⟨[], .none, rfl⟩
    · exact ⟨['+'], .plus, rfl⟩
    · exact ⟨['-'], .minus, rfl⟩
  · rintro ⟨sign, hs, rfl⟩
    cases hs with
    | none => exact .inl (.inl rfl)
    | plus => exact .inl (.inr rfl)
    | minus => exact .inr rfl

theorem isNumeral_iff {cs : List Char} : IsNumeral cs ↔ cs = [] ∨
    (∃ mark radix digits, (mark, radix) ∈ radixMarks ∧ cs = '0' :: mark :: digits ∧
      digits ≠ [] ∧ ∀ c ∈ digits, isDigitIn radix c) ∨
    ((cs = "Infinity".toList ∨ cs = "+Infinity".toList) ∨ cs = "-Infinity".toList) ∨
    (Double.readDecimal? cs).isSome := by
  rw [infinity_iff, readDecimal?_isSome_iff]
  constructor
  · intro numeral
    cases numeral with
    | empty => exact .inl rfl
    | radix hm ne_nil valid => exact .inr (.inl ⟨_, _, _, hm, rfl, ne_nil, valid⟩)
    | infinity hs => exact .inr (.inr (.inl ⟨_, hs, rfl⟩))
    | decimal hs hm he => exact .inr (.inr (.inr ⟨_, _, _, rfl, hs, hm, he⟩))
  · rintro (rfl | ⟨mark, radix, digits, hm, rfl, ne_nil, valid⟩ | ⟨sign, hs, rfl⟩ |
      ⟨sign, mantissa, exponent, rfl, hs, hm, he⟩)
    · exact .empty
    · exact .radix hm ne_nil valid
    · exact .infinity hs
    · exact .decimal hs hm he

theorem readTrimmed_radix {mark : Char} {radix : Nat} (hm : (mark, radix) ∈ radixMarks) (digits : List Char) :
    Double.readTrimmed ('0' :: mark :: digits) = Double.readRadix radix digits := by
  simp only [Double.readTrimmed, mem_radixMarks_iff.1 hm]

theorem readTrimmed_plain {cs : List Char} (ne_nil : cs ≠ [])
    (plain : ∀ mark radix digits, (mark, radix) ∈ radixMarks → cs ≠ '0' :: mark :: digits) :
    Double.readTrimmed cs =
      if cs = "Infinity".toList ∨ cs = "+Infinity".toList then .infinity false
      else if cs = "-Infinity".toList then .infinity true
      else (Double.readDecimal? cs).getD .nan := by
  unfold Double.readTrimmed
  dsimp only
  split
  · exact absurd rfl ne_nil
  · split
    · rename_i radix hm
      exact absurd rfl (plain _ radix _ (mem_radixMarks_iff.2 hm))
    · rfl
  · rfl

theorem readTrimmed_plain_ne_nan_iff {cs : List Char} (ne_nil : cs ≠ [])
    (plain : ∀ mark radix digits, (mark, radix) ∈ radixMarks → cs ≠ '0' :: mark :: digits) :
    Double.readTrimmed cs ≠ .nan ↔
      ((cs = "Infinity".toList ∨ cs = "+Infinity".toList) ∨ cs = "-Infinity".toList) ∨
        (Double.readDecimal? cs).isSome := by
  have infinite (negative : Bool) : Double.infinity negative ≠ .nan := fun h => by cases h
  rw [readTrimmed_plain ne_nil plain]
  split
  · rename_i positive
    exact iff_of_true (infinite false) (.inl (.inl positive))
  · rename_i positive
    split
    · rename_i negative
      exact iff_of_true (infinite true) (.inl (.inr negative))
    · rename_i negative
      rw [or_iff_right (not_or.2 ⟨positive, negative⟩)]
      cases read : Double.readDecimal? cs with
      | none => exact iff_of_false (fun h => h rfl) Bool.false_ne_true
      | some x => exact iff_of_true (readDecimal?_ne_nan read) rfl

/-- The numerals are the texts that are read as a number. -/
theorem readTrimmed_ne_nan_iff {cs : List Char} : Double.readTrimmed cs ≠ .nan ↔ IsNumeral cs := by
  rw [isNumeral_iff]
  by_cases nil : cs = []
  · subst nil
    exact iff_of_true (fun h => by cases h) (.inl rfl)
  rw [or_iff_right nil]
  -- What announces a radix is not tried as a decimal, so that it could not be one has to be known.
  by_cases announced : ∃ mark radix digits, (mark, radix) ∈ radixMarks ∧ cs = '0' :: mark :: digits
  · obtain ⟨mark, radix, digits, hm, rfl⟩ := announced
    rw [readTrimmed_radix hm, readRadix_ne_nan_iff hm, readDecimal?_radix hm]
    constructor
    · rintro ⟨ne_nil, valid⟩
      exact .inl ⟨mark, radix, digits, hm, rfl, ne_nil, valid⟩
    · rintro (⟨mark', radix', digits', hm', text, parts⟩ | infinite | decimal)
      · cases text
        have same := (mem_radixMarks_iff.1 hm).symm.trans (mem_radixMarks_iff.1 hm')
        cases same
        exact parts
      · simp at infinite
      · cases decimal
  · have plain (mark : Char) (radix : Nat) (digits : List Char) (hm : (mark, radix) ∈ radixMarks) :
        cs ≠ '0' :: mark :: digits := fun text => announced ⟨mark, radix, digits, hm, text⟩
    rw [readTrimmed_plain_ne_nan_iff nil plain]
    refine (or_iff_right ?_).symm
    rintro ⟨mark, radix, digits, hm, text, -⟩
    exact plain mark radix digits hm text

/-! ### Blanks around a numeral -/

theorem trimBlanks_append {blank : Char → Bool} {before body after : List Char} (hb : ∀ c ∈ before, blank c)
    (ha : ∀ c ∈ after, blank c) (inner : ∀ c ∈ body, blank c = false) :
    trimBlanks blank (before ++ (body ++ after)) = body := by
  unfold trimBlanks
  cases body with
  | nil =>
    have behind : (after ++ []).dropWhile blank = [] := List.dropWhile_append_of_pos ha
    rw [List.append_nil] at behind
    rw [List.nil_append, List.dropWhile_append_of_pos hb, behind]
    rfl
  | cons c rest =>
    have first : ∀ d ∈ (c :: rest ++ after).head?, blank d = false := by
      intro d hd
      cases hd
      exact inner c List.mem_cons_self
    have last : ∀ d ∈ (c :: rest).reverse.head?, blank d = false := by
      intro d hd
      exact inner d (List.mem_reverse.1 (List.mem_of_mem_head? hd))
    have behind : ∀ d ∈ after.reverse, blank d := fun d hd => ha d (List.mem_reverse.1 hd)
    rw [dropWhile_run hb first, List.reverse_append, dropWhile_run behind last, List.reverse_reverse]

theorem exists_trimBlanks (blank : Char → Bool) (cs : List Char) :
    ∃ before after, cs = before ++ (trimBlanks blank cs ++ after) ∧ (∀ c ∈ before, blank c) ∧
      ∀ c ∈ after, blank c := by
  obtain ⟨before, rest, rfl, hb, first⟩ := exists_run blank cs
  obtain ⟨after, body, text, ha, last⟩ := exists_run blank rest.reverse
  have trimmed : trimBlanks blank (before ++ rest) = body.reverse := by
    rw [trimBlanks, dropWhile_run hb first, text, dropWhile_run ha last]
  have parts : rest = body.reverse ++ after.reverse := by
    rw [← List.reverse_append, ← text, List.reverse_reverse]
  refine ⟨before, after.reverse, ?_, hb, fun c hc => ha c (List.mem_reverse.1 hc)⟩
  rw [trimmed, ← parts]

/-- The characters that stand in numerals: ASCII letters and digits, signs and the point. -/
def isNumeralChar (c : Char) : Bool :=
  let n := c.toNat
  (0x30 ≤ n && n ≤ 0x39) || (0x41 ≤ n && n ≤ 0x5a) || (0x61 ≤ n && n ≤ 0x7a) || n == 0x2b || n == 0x2d
    || n == 0x2e

theorem isNumeralChar_of_isDigit {c : Char} (h : c.isDigit) : isNumeralChar c := by
  have code : 0x30 ≤ c.toNat ∧ c.toNat ≤ 0x39 := by
    simpa [Char.isDigit, UInt32.le_iff_toNat_le] using h
  simp [isNumeralChar, code]

theorem isNumeralChar_of_isDigitIn {radix : Nat} {c : Char} (h : isDigitIn radix c) : isNumeralChar c := by
  have code := code_of_isDigitIn h
  simp only [isNumeralChar, Bool.or_eq_true, Bool.and_eq_true, decide_eq_true_eq, beq_iff_eq]
  omega

theorem not_isNumeralBlank {c : Char} (h : isNumeralChar c) : isNumeralBlank c = false := by
  simp only [isNumeralChar, Bool.or_eq_true, Bool.and_eq_true, decide_eq_true_eq, beq_iff_eq] at h
  simp only [isNumeralBlank, isBlank, Bool.or_eq_false_iff, Bool.and_eq_false_iff, decide_eq_false_iff_not,
    beq_eq_false_iff_ne]
  omega

theorem IsSign.chars {sign : List Char} (h : IsSign sign) : ∀ c ∈ sign, isNumeralChar c := by
  apply List.all_eq_true.1
  cases h <;> decide

theorem IsMantissa.chars {mantissa : List Char} (h : IsMantissa mantissa) : ∀ c ∈ mantissa, isNumeralChar c := by
  have digits {cs : List Char} (h : ∀ c ∈ cs, c.isDigit) : ∀ c ∈ cs, isNumeralChar c :=
    fun c hc => isNumeralChar_of_isDigit (h c hc)
  have point : isNumeralChar '.' := by decide
  cases h with
  | whole h => exact digits h.all
  | fraction h rest => exact List.forall_mem_append.2 ⟨digits h.all, List.forall_mem_cons.2 ⟨point, digits rest⟩⟩
  | point h => exact List.forall_mem_cons.2 ⟨point, digits h.all⟩

theorem IsExponent.chars {exponent : List Char} (h : IsExponent exponent) : ∀ c ∈ exponent, isNumeralChar c := by
  cases h with
  | none => exact List.forall_mem_nil _
  | power letter hs h =>
    refine List.forall_mem_cons.2 ⟨?_, List.forall_mem_append.2 ⟨hs.chars, ?_⟩⟩
    · obtain rfl | rfl := letter <;> decide
    · exact fun c hc => isNumeralChar_of_isDigit (h.all c hc)

theorem IsNumeral.chars {cs : List Char} (h : IsNumeral cs) : ∀ c ∈ cs, isNumeralChar c := by
  cases h with
  | empty => exact List.forall_mem_nil _
  | radix hm ne_nil valid =>
    have all : ∀ entry ∈ radixMarks, isNumeralChar entry.1 := by decide
    have zero : isNumeralChar '0' := by decide
    exact List.forall_mem_cons.2 ⟨zero, List.forall_mem_cons.2
      ⟨all _ hm, fun c hc => isNumeralChar_of_isDigitIn (valid c hc)⟩⟩
  | infinity hs =>
    have word : ∀ c ∈ "Infinity".toList, isNumeralChar c := List.all_eq_true.1 (by decide)
    exact List.forall_mem_append.2 ⟨hs.chars, word⟩
  | decimal hs hm he => exact List.forall_mem_append.2 ⟨hs.chars, List.forall_mem_append.2 ⟨hm.chars, he.chars⟩⟩

namespace Double

theorem ofText_around {s : String} {before body after : List Char} (text : s.toList = before ++ (body ++ after))
    (hb : ∀ c ∈ before, isNumeralBlank c) (ha : ∀ c ∈ after, isNumeralBlank c)
    (chars : ∀ c ∈ body, isNumeralChar c) : ofText s = readTrimmed body := by
  have inner : ∀ c ∈ body, isNumeralBlank c = false := fun c hc => not_isNumeralBlank (chars c hc)
  rw [ofText, text, read, trimBlanks_append hb ha inner]

theorem exists_numeral {s : String} (h : ofText s ≠ nan) :
    ∃ before body after, s.toList = before ++ (body ++ after) ∧ (∀ c ∈ before, isNumeralBlank c) ∧
      (∀ c ∈ after, isNumeralBlank c) ∧ IsNumeral body := by
  obtain ⟨before, after, text, hb, ha⟩ := exists_trimBlanks isNumeralBlank s.toList
  exact ⟨before, _, after, text, hb, ha, readTrimmed_ne_nan_iff.1 h⟩

/-- A text is read as a number exactly if it is a numeral between blanks; blanks alone are zero. -/
theorem ofText_accepts (s : String) :
    (ofText s ≠ nan ↔ ∃ before body after, s.toList = before ++ (body ++ after) ∧
      (∀ c ∈ before, isNumeralBlank c) ∧ (∀ c ∈ after, isNumeralBlank c) ∧ IsNumeral body) ∧
    ((∀ c ∈ s.toList, isNumeralBlank c) → ofText s = zero) := by
  refine ⟨⟨exists_numeral, ?_⟩, ?_⟩
  · rintro ⟨before, body, after, text, hb, ha, numeral⟩
    rw [ofText_around text hb ha numeral.chars]
    exact readTrimmed_ne_nan_iff.2 numeral
  · intro blank
    have text : s.toList = s.toList ++ ([] ++ []) := by simp
    exact ofText_around text blank (List.forall_mem_nil _) (List.forall_mem_nil _)

theorem ofText_accepts_hex : ofText " 0x1F\n" ≠ nan ∧ ofText "\t " = zero := by
  have mark : ('x', 16) ∈ radixMarks := by decide
  have digits : ∀ c ∈ ['1', 'F'], isDigitIn 16 c := List.all_eq_true.1 (by decide)
  have numeral : IsNumeral ['0', 'x', '1', 'F'] := .radix mark (by decide) digits
  have before : ∀ c ∈ [' '], isNumeralBlank c := List.all_eq_true.1 (by decide)
  have after : ∀ c ∈ ['\n'], isNumeralBlank c := List.all_eq_true.1 (by decide)
  have blanks : ∀ c ∈ "\t ".toList, isNumeralBlank c := List.all_eq_true.1 (by decide)
  exact ⟨(ofText_accepts _).1.2 ⟨[' '], _, ['\n'], by decide, before, after, numeral⟩,
    (ofText_accepts _).2 blanks⟩

end Double

end TemplateExpr
