import TemplateExpr.Proofs.Lexed
import TemplateExpr.Proofs.WholeNumbers

/-!
# Number literals as texts

A source that is one number literal can also be coerced to a number as a text.  The blanks around it are dropped either
way, and what the tokens take for a numeral is one for the coercion too, with the same number.  Only the zero in front
of octal digits announces a radix to the tokens alone.
-/

namespace TemplateExpr

/-! ### Sources of a single token -/

theorem Lexed.blank {p : Nat} {text : List Char} (h : Lexed p text []) : ∀ c ∈ text, isLayout c := by
  generalize none : ([] : List Token) = ts at h
  induction h with
  | done => exact List.forall_mem_nil _
  | layout hc _ ih => exact List.forall_mem_cons.2 ⟨hc, ih none⟩
  | token => cases none

theorem Lexed.single {p : Nat} {text : List Char} {t : Token} (h : Lexed p text [t]) :
    ∃ before c cs after, text = before ++ (c :: cs ++ after) ∧ (∀ d ∈ before, isLayout d) ∧
      (∀ d ∈ after, isLayout d) ∧ readToken c (cs ++ after) = .ok (t.kind, cs.length + 1) := by
  generalize one : [t] = ts at h
  induction h with
  | done => cases one
  | @layout _ b _ _ hb _ ih =>
    obtain ⟨before, c, cs, after, rfl, blank, rest⟩ := ih one
    exact ⟨b :: before, c, cs, after, rfl, List.forall_mem_cons.2 ⟨hb, blank⟩, rest⟩
  | @token _ c cs tail _ _ _ read lexed =>
    cases one
    exact ⟨[], c, cs, tail, rfl, List.forall_mem_nil _, lexed.blank, read⟩

theorem readNumeral_of_token {c : Char} {rest : List Char} {x : Double} {length : Nat}
    (h : readToken c rest = .ok (.number x, length)) : readNumeral c rest = .ok (x, length) := by
  unfold readToken at h
  split at h
  · obtain ⟨_, -, same⟩ := bind_ok h
    cases same
  · split at h
    · obtain ⟨⟨y, n⟩, read, same⟩ := bind_ok h
      cases same
      exact readNumeral_of_separate read
    · split at h
      · cases h
      · split at h <;> cases h

/-! ### Literals -/

theorem fractionOf_head (rest : List Char) : ∀ c ∈ (fractionOf rest).head?, c = '.' := by
  intro c hc
  unfold fractionOf at hc
  split at hc
  · exact (Option.some.inj hc).symm
  · cases hc

theorem exponentText?_head {rest exponent : List Char} (h : exponentText? rest = some exponent) :
    ∀ c ∈ exponent.head?, c = 'e' ∨ c = 'E' := by
  intro c hc
  unfold exponentText? at h
  split at h
  · cases h
    cases hc
  · split at h
    · rename_i letter
      obtain ⟨-, power⟩ := Option.ite_none_left_eq_some.1 h
      cases power
      cases hc
      exact letter
    · cases h
      cases hc

/-- What a decimal numeral is read from: all that is counted, with no octal digit behind the first digits. -/
theorem readDecimalNumeral_text {lead rest : List Char} {x : Double} {length : Nat}
    (h : readDecimalNumeral lead rest = .ok (x, length)) :
    ∃ more tail, rest = more ++ tail ∧ length = (lead ++ more).length ∧
      Double.readDecimal? (lead ++ more) = some x ∧ ∀ c ∈ more.head?, isDigitIn 8 c = false := by
  obtain ⟨exponent, hexponent, value, length⟩ := readDecimalNumeral_eq_ok_iff.1 h
  obtain ⟨after, hafter, -⟩ := fractionOf_found rest
  have point := fractionOf_head rest
  generalize fractionOf rest = fraction at *
  subst hafter
  rw [List.drop_left] at hexponent
  obtain ⟨tail, rfl, -⟩ := exponentText?_found hexponent
  rw [List.append_assoc] at value length
  refine ⟨fraction ++ exponent, tail, (List.append_assoc ..).symm, length, value, fun c hc => ?_⟩
  cases fraction with
  | cons d fraction =>
    obtain rfl : d = c := Option.some.inj hc
    rw [point d rfl]
    decide
  | nil =>
    obtain rfl | rfl := exponentText?_head hexponent c hc
    · decide
    · decide

/-- The number of a literal: that of octal digits behind a zero, or the one that the literal is read as as a text. -/
inductive LiteralNumber (literal : List Char) (x : Double) : Prop where
  | octal {digits : List Char} (h : IsZeroOctal literal digits) (value : x = Double.readRadix 8 digits)
  | text (plain : ∀ digits, ¬ IsZeroOctal literal digits) (numeral : IsNumeral literal)
    (value : Double.readTrimmed literal = x)

theorem readPlainNumeral_literal {c : Char} {rest : List Char} {x : Double} {length : Nat}
    (h : readPlainNumeral c rest = .ok (x, length)) :
    ∃ literal tail, c :: rest = literal ++ tail ∧ length = literal.length ∧ LiteralNumber literal x := by
  obtain ⟨digits, after, rfl, hd, ha⟩ := exists_run Char.isDigit rest
  unfold readPlainNumeral at h
  rw [takeWhile_run hd ha, dropWhile_run hd ha] at h
  dsimp only at h
  split at h
  · rename_i octal
    obtain ⟨octals, zero⟩ := isLegacyOctal_iff.1 octal
    obtain ⟨rfl, rfl⟩ := List.cons.inj zero.1
    cases h
    exact ⟨'0' :: digits, after, rfl, rfl, .octal zero rfl⟩
  · rename_i plain
    obtain ⟨more, tail, rfl, length, value, head⟩ := readDecimalNumeral_text h
    refine ⟨c :: digits ++ more, tail, ?_, length, ?_⟩
    · rw [List.append_assoc, List.cons_append]
    · refine .text (fun octals zero => ?_) (Double.isNumeral_of_readDecimal? value)
        (Double.readTrimmed_of_readDecimal? value)
      -- What follows the first digits begins with a point or an `e`, so it does not make them octal.
      cases more with
      | nil =>
        rw [List.append_nil] at zero
        exact plain (isLegacyOctal_iff.2 ⟨octals, zero⟩)
      | cons d more =>
        have octal := zero.all d (List.mem_append_right _ List.mem_cons_self)
        rw [head d rfl] at octal
        cases octal

theorem readNumeral_literal {c : Char} {rest : List Char} {x : Double} {length : Nat}
    (h : readNumeral c rest = .ok (x, length)) :
    ∃ literal tail, c :: rest = literal ++ tail ∧ length = literal.length ∧ LiteralNumber literal x := by
  rw [readNumeral_eq] at h
  cases announced : announcedRadix? c rest with
  | none =>
    rw [announced] at h
    exact readPlainNumeral_literal h
  | some radix =>
    rw [announced] at h
    obtain ⟨rfl, mark⟩ := Option.ite_none_right_eq_some.1 announced
    obtain ⟨letter, hletter, hm⟩ := Option.bind_eq_some_iff.1 mark
    obtain ⟨rest, rfl⟩ := List.head?_eq_some_iff.1 hletter
    obtain ⟨digits, tail, rfl, hd, ht⟩ := exists_run (isDigitIn radix) rest
    rw [Option.elim_some, List.tail_cons, readRadixNumeral, takeWhile_run hd ht] at h
    split at h
    · cases h
    · rename_i some_digit
      cases h
      have hm := mem_radixMarks_iff.2 hm
      have no_digit : ∀ entry ∈ radixMarks, isDigitIn 8 entry.1 = false := by decide
      have value := readTrimmed_radix hm digits
      refine ⟨'0' :: letter :: digits, tail, rfl, rfl, .text (fun octals zero => ?_) ?_ value⟩
      · have octal := zero.all letter (List.mem_cons_of_mem _ List.mem_cons_self)
        rw [no_digit _ hm] at octal
        cases octal
      · exact .radix hm (List.isEmpty_eq_false_iff.1 (Bool.eq_false_iff.2 some_digit)) hd

/-! ### Octal digits as decimal ones -/

theorem readDecimal?_digits {digits : List Char} (h : IsDigits digits) :
    Double.readDecimal? digits = some (.ofNat (natOfDigits digits)) := by
  let n : Numeral := ⟨digits, none, none, h, fun _ none => by cases none⟩
  have read := Double.readDecimal?_text n false
  have text : n.text false = digits := List.append_nil digits
  have significand : n.significand = natOfDigits digits := congrArg natOfDigits (List.append_nil digits)
  have scale : n.scale = (0 : Nat) := rfl
  rw [text, significand, scale, Double.ofDecimal_natCast, Nat.pow_zero, Nat.mul_one] at read
  exact read

theorem IsZeroOctal.digits {literal digits : List Char} (h : IsZeroOctal literal digits) : IsDigits literal := by
  refine ⟨?_, fun c hc => isDigit_of_isDigitIn (by decide) (h.all c hc)⟩
  rw [h.1]
  exact List.cons_ne_nil _ _

theorem LiteralNumber.isNumeral {literal : List Char} {x : Double} (h : LiteralNumber literal x) :
    IsNumeral literal := by
  cases h with
  | octal h _ => exact Double.isNumeral_of_readDecimal? (readDecimal?_digits h.digits)
  | text _ numeral _ => exact numeral

/-! ### Blanks -/

theorem isNumeralBlank_of_isLayout {c : Char} (h : isLayout c) : isNumeralBlank c := by
  have all : ∀ n ∈ layoutCodes, isNumeralBlank (Char.ofNat n) := List.all_eq_true.1 (by decide)
  exact forall_layout all c h

theorem not_isLayout_of_isNumeralChar {c : Char} (h : isNumeralChar c) : isLayout c = false := by
  refine Bool.eq_false_iff.2 fun layout => ?_
  have blank := isNumeralBlank_of_isLayout layout
  rw [not_isNumeralBlank h] at blank
  cases blank

/-- A source that is one number literal between layout gives the same number as a text that is coerced, unless the
literal is a zero with octal digits behind it.  In this case the text is read as decimal, and the token is the number
of the octal digits: exactly so below `2 ^ 53` and the double nearest to it from there, except where digits that come
too late would decide a tie. -/
theorem number_literal {source : String} {x : Double} {position : Nat}
    (h : tokenize source = .ok [⟨.number x, position⟩]) :
    ∃ before literal after, source.toList = before ++ (literal ++ after) ∧ (∀ c ∈ before, isLayout c) ∧
      (∀ c ∈ literal, isLayout c = false) ∧ (∀ c ∈ after, isLayout c) ∧
      ((∀ digits, ¬ IsZeroOctal literal digits) → Double.ofText source = x) ∧
      ∀ digits, IsZeroOctal literal digits →
        Double.IsNearest (natOfDigits literal) (Double.ofText source) ∧
        Double.IsNearest (Double.keptValue 8 (Double.radixValue 8 digits)) x ∧
        (Double.IsNearest (Double.radixValue 8 digits) x ↔ ¬ Double.LosesTie 8 (Double.radixValue 8 digits)) ∧
        (Double.radixValue 8 digits < 2 ^ 53 → x.toInt? = some (Double.radixValue 8 digits : Int)) := by
  obtain ⟨before, c, cs, after, text, hb, ha, token⟩ := (tokenize_eq_ok_iff.1 h).single
  obtain ⟨literal, tail, split, length, number⟩ := readNumeral_literal (readNumeral_of_token token)
  have same : (c :: cs).length = literal.length := length
  rw [← List.cons_append] at split
  obtain ⟨rfl, rfl⟩ := List.append_inj split same
  have chars := number.isNumeral.chars
  have read := Double.ofText_around text (fun d hd => isNumeralBlank_of_isLayout (hb d hd))
    (fun d hd => isNumeralBlank_of_isLayout (ha d hd)) chars
  refine ⟨before, c :: cs, after, text, hb, fun d hd => not_isLayout_of_isNumeralChar (chars d hd), ha, ?_, ?_⟩
  · intro plain
    cases number with
    | octal zero _ => exact absurd zero (plain _)
    | text _ _ value => exact read.trans value
  · intro digits zero
    cases number with
    | text plain _ _ => exact absurd zero (plain digits)
    | @octal octals zero' value =>
      obtain rfl : digits = octals := List.tail_eq_of_cons_eq (zero.1.symm.trans zero'.1)
      have mark : ('o', 8) ∈ radixMarks := by decide
      have decimal := Double.readTrimmed_of_readDecimal? (readDecimal?_digits zero.digits)
      rw [value]
      exact ⟨Double.isNearest_iff.2 (read.trans decimal), Double.readRadix_rounded mark zero.2.1 zero.2.2⟩

theorem number_literal_hex :
    tokenize " 0x1F\n" = .ok [⟨.number (Double.readRadix 16 ['1', 'F']), 1⟩] ∧
      Double.ofText " 0x1F\n" = Double.readRadix 16 ['1', 'F'] := by
  have token : tokenize " 0x1F\n" = .ok [⟨.number (Double.readRadix 16 ['1', 'F']), 1⟩] :=
    tokenize_eq_ok_iff.2 (.layout (by decide) (@Lexed.token _ '0' ['x', '1', 'F'] _ _ _ (by decide) rfl
      (.layout (by decide) .done)))
  obtain ⟨before, literal, after, text, hb, -, ha, same, -⟩ := number_literal token
  have letter : 'x' ∈ before ++ (literal ++ after) := by
    rw [← text]
    decide
  refine ⟨token, same fun digits zero => ?_⟩
  obtain blank | inside | blank : 'x' ∈ before ∨ 'x' ∈ literal ∨ 'x' ∈ after := by
    rwa [List.mem_append, List.mem_append] at letter
  · exact absurd (hb 'x' blank) (by decide)
  · exact absurd (zero.all 'x' inside) (by decide)
  · exact absurd (ha 'x' blank) (by decide)

/-- Octal digits whose number is a little more than halfway from one double to the next. -/
theorem number_literal_loses_tie :
    (∃ position, tokenize "04000000000000000011" =
      .ok [⟨.number (Double.readRadix 8 "4000000000000000011".toList), position⟩]) ∧
    IsZeroOctal "04000000000000000011".toList "4000000000000000011".toList ∧
    ¬ Double.IsNearest (Double.radixValue 8 "4000000000000000011".toList)
      (Double.readRadix 8 "4000000000000000011".toList) := by
  have valid : ∀ c ∈ "4000000000000000011".toList, isDigitIn 8 c := List.all_eq_true.1 (by decide)
  have ends : EndsName [] := fun c hc => absurd hc (Option.not_mem_none c)
  refine ⟨?_, ⟨by decide, by decide, valid⟩, ?_⟩
  · have text : "04000000000000000011".toList = '0' :: "4000000000000000011".toList ++ [] := by decide
    have scanned := scans_legacyOctal (by decide) valid ends
    rw [← text] at scanned
    obtain ⟨tokens, ⟨position, rfl⟩, read⟩ := scanned.tokenize
    exact ⟨position, read⟩
  · rw [Double.isNearest_iff]
    decide +kernel

end TemplateExpr
