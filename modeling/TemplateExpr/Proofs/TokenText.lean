import TemplateExpr.Proofs.NumberRoundTrip
import TemplateExpr.Proofs.Outcome
import TemplateExpr.Token.Scan

/-!
# Tokens from their texts

A scan of the text of a symbol, a name or a number finds that token and goes on behind it, if what stands
there cannot belong to the token.  Such steps are put together to scans of longer texts, whatever the
place that they begin at.
-/

namespace TemplateExpr

/-! ### One token -/

theorem scan_token {c : Char} {cs tail : List Char} {kind : TokenKind} (hc : isLayout c = false)
    (read : readToken c (cs ++ tail) = .ok (kind, cs.length + 1)) (position : Nat) (done : List Token) :
    scan position done (c :: (cs ++ tail)) =
      scan (position + utf8Length (c :: cs)) (⟨kind, position⟩ :: done) tail := by
  have behind : (cs ++ tail).drop (cs.length + 1 - 1) = tail := List.drop_left
  have taken : (cs ++ tail).take (cs.length + 1 - 1) = cs := List.take_left
  rw [scan, if_neg (by simp [hc]), read]
  dsimp only
  rw [behind, taken, utf8Length, Nat.add_assoc]

theorem tokenize_of_token {source : String} {c : Char} {cs : List Char} {kind : TokenKind}
    (text : source.toList = c :: cs) (hc : isLayout c = false)
    (read : readToken c cs = .ok (kind, cs.length + 1)) : tokenize source = .ok [⟨kind, 0⟩] := by
  rw [← List.append_nil cs] at text
  rw [tokenize, text, scan_token hc (by rw [List.append_nil, read]), scan]
  rfl

/-! ### Scans of a part of a text -/

/-- From `text` to `tail` a scan finds tokens with a property. -/
def Scans (text tail : List Char) (found : List Token → Prop) : Prop :=
  ∀ position done, ∃ w last, found w ∧ scan position done text = scan last (w.reverse ++ done) tail

/-- One token of a kind, at any place. -/
def IsToken (kind : TokenKind) (w : List Token) : Prop := ∃ position, w = [⟨kind, position⟩]

namespace Scans

variable {text middle tail rest : List Char} {found found' : List Token → Prop}

theorem andThen (h : Scans text middle found) (h' : Scans middle tail found') :
    Scans text tail fun w => ∃ u v, w = u ++ v ∧ found u ∧ found' v := by
  intro position done
  obtain ⟨u, between, hu, first⟩ := h position done
  obtain ⟨v, last, hv, second⟩ := h' between (u.reverse ++ done)
  refine ⟨u ++ v, last, ⟨u, v, rfl, hu, hv⟩, ?_⟩
  rw [first, second, List.reverse_append, List.append_assoc]

theorem imp (h : Scans text tail found) (hw : ∀ w, found w → found' w) : Scans text tail found' := by
  intro position done
  obtain ⟨w, last, found, scanned⟩ := h position done
  exact ⟨w, last, hw w found, scanned⟩

theorem layout {c : Char} (hc : isLayout c) (h : Scans rest tail found) : Scans (c :: rest) tail found := by
  intro position done
  obtain ⟨w, last, found, scanned⟩ := h (position + c.utf8Size) done
  refine ⟨w, last, found, ?_⟩
  rw [scan, if_pos hc, scanned]

theorem behind {c : Char} (hc : isLayout c) (h : Scans text (c :: tail) found) : Scans text tail found := by
  intro position done
  obtain ⟨w, last, found, scanned⟩ := h position done
  refine ⟨w, last + c.utf8Size, found, ?_⟩
  rw [scanned, scan, if_pos hc]

theorem token {c : Char} {kind : TokenKind} {cs : List Char} (hc : isLayout c = false)
    (read : readToken c (cs ++ tail) = .ok (kind, cs.length + 1)) :
    Scans (c :: cs ++ tail) tail (IsToken kind) := by
  intro position done
  exact ⟨[⟨kind, position⟩], _, ⟨position, rfl⟩, scan_token hc read position done⟩

theorem tokenize {source : String} (h : Scans source.toList [] found) :
    ∃ w, found w ∧ tokenize source = .ok w := by
  obtain ⟨w, last, found, scanned⟩ := h 0 []
  refine ⟨w, found, ?_⟩
  rw [TemplateExpr.tokenize, scanned, scan, List.append_nil, List.reverse_reverse]

end Scans

/-! ### Characters of names -/

/-- The code points of the characters between tokens. -/
def layoutCodes : List Nat := [0x09, 0x0a, 0x0b, 0x0c, 0x0d, 0x20, 0xa0, 0x1680, 0x2000, 0x2001, 0x2002,
  0x2003, 0x2004, 0x2005, 0x2006, 0x2007, 0x2008, 0x2009, 0x200a, 0x2028, 0x2029, 0x202f, 0x205f, 0x3000,
  0xfeff]

theorem toNat_mem_layoutCodes {c : Char} (h : isLayout c) : c.toNat ∈ layoutCodes := by
  simp only [isLayout, isLineEnd, isSpace, Bool.or_eq_true, Bool.and_eq_true, beq_iff_eq,
    decide_eq_true_eq] at h
  rcases h with (((rfl | rfl) | h) | h) | h
  · decide
  · decide
  all_goals
    simp only [layoutCodes, List.mem_cons, List.not_mem_nil, or_false]
    omega

theorem forall_layout {p : Char → Bool} {b : Bool} (h : ∀ n ∈ layoutCodes, p (Char.ofNat n) = b) :
    ∀ c, isLayout c → p c = b := by
  intro c layout
  have found := h c.toNat (toNat_mem_layoutCodes layout)
  rwa [Char.ofNat_toNat] at found

-- Names are made of tables of letters, so that blanks are no part of them is a matter of trying them.
theorem not_isNameStart_of_isLayout {c : Char} (h : isLayout c) : isNameStart c = false := by
  have all : ∀ n ∈ layoutCodes, isNameStart (Char.ofNat n) = false := by decide +kernel
  exact forall_layout all c h

theorem isNumber_of_isDigit {c : Char} (h : c.isDigit) : isNumber c := by
  have code : 0x30 ≤ c.toNat ∧ c.toNat ≤ 0x39 := by
    simpa [Char.isDigit, UInt32.le_iff_toNat_le] using h
  have small : c.toNat < 0x80 := by omega
  simp only [isNumber, if_pos small, Bool.and_eq_true, decide_eq_true_eq]
  exact code

theorem not_isLayout_of_isDigit {c : Char} (h : c.isDigit) : isLayout c = false := by
  have code : 0x30 ≤ c.toNat ∧ c.toNat ≤ 0x39 := by
    simpa [Char.isDigit, UInt32.le_iff_toNat_le] using h
  refine Bool.eq_false_iff.2 fun layout => ?_
  have codes := toNat_mem_layoutCodes layout
  simp only [layoutCodes, List.mem_cons, List.not_mem_nil, or_false] at codes
  omega

theorem not_isNameStart_of_isDigit {c : Char} (h : c.isDigit) : isNameStart c = false := by
  have code : 0x30 ≤ c.toNat ∧ c.toNat ≤ 0x39 := by
    simpa [Char.isDigit, UInt32.le_iff_toNat_le] using h
  have all : ∀ n < 0x3a, 0x30 ≤ n → isNameStart (Char.ofNat n) = false := by decide +kernel
  have := all c.toNat (by omega) code.1
  rwa [Char.ofNat_toNat] at this

theorem not_isNameStart_of_not_isNamePart {c : Char} (h : isNamePart c = false) :
    isNameStart c = false := by
  simp only [isNamePart, Bool.or_eq_false_iff] at h
  exact h.1.1.1

theorem not_isDigit_of_not_isNamePart {c : Char} (h : isNamePart c = false) : c.isDigit = false := by
  simp only [isNamePart, Bool.or_eq_false_iff] at h
  refine Bool.eq_false_iff.2 fun digit => ?_
  rw [isNumber_of_isDigit digit] at h
  exact absurd h.1.1.2 (by decide)

theorem not_isDigit_of_isNameStart {c : Char} (h : isNameStart c) : c.isDigit = false :=
  Bool.eq_false_iff.2 fun digit => absurd h (by rw [not_isNameStart_of_isDigit digit]; decide)

theorem not_isLayout_of_isNameStart {c : Char} (h : isNameStart c) : isLayout c = false :=
  Bool.eq_false_iff.2 fun layout => absurd h (by rw [not_isNameStart_of_isLayout layout]; decide)

/-! ### Names -/

/-- A text that a scan finds as one name. -/
def IsName (s : String) : Prop := ∃ c cs, s.toList = c :: cs ∧ isNameStart c ∧ ∀ d ∈ cs, isNamePart d

theorem IsName.of_all {s : String} {c : Char} {cs : List Char} (text : s.toList = c :: cs)
    (start : isNameStart c) (parts : cs.all isNamePart) : IsName s :=
  ⟨c, cs, text, start, List.all_eq_true.1 parts⟩

/-- A text that cannot go on with a name in front of it. -/
def EndsName (tail : List Char) : Prop := ∀ c ∈ tail.head?, isNamePart c = false

theorem isNameStart_ne {c d : Char} (h : isNameStart c) (hd : isNameStart d = false) : c ≠ d := by
  rintro rfl
  rw [h] at hd
  cases hd

theorem readToken_name {c : Char} {cs tail : List Char} (start : isNameStart c)
    (parts : ∀ d ∈ cs, isNamePart d) (ht : EndsName tail) :
    readToken c (cs ++ tail) = .ok (.name (String.ofList (c :: cs)), cs.length + 1) := by
  have no_quote : ¬(c = '\'' ∨ c = '"') := by
    rintro (quote | quote)
    · exact isNameStart_ne start (by decide) quote
    · exact isNameStart_ne start (by decide) quote
  have no_numeral : startsNumeral c (cs ++ tail) = false := by
    have no_point : (c == '.') = false := beq_eq_false_iff_ne.2 (isNameStart_ne start (by decide))
    rw [startsNumeral, not_isDigit_of_isNameStart start, no_point]
    rfl
  simp only [readToken, if_neg no_quote, no_numeral, start, if_true, Bool.false_eq_true, if_false,
    takeWhile_run parts ht]
  rfl

theorem scans_name {s : String} (h : IsName s) {tail : List Char} (ht : EndsName tail) :
    Scans (s.toList ++ tail) tail (IsToken (.name s)) := by
  obtain ⟨c, cs, text, start, parts⟩ := h
  have read := readToken_name start parts ht
  rw [← text, String.ofList_toList] at read
  rw [text]
  exact Scans.token (not_isLayout_of_isNameStart start) read

theorem tokenize_name {name : String} (h : IsName name) : tokenize name = .ok [⟨.name name, 0⟩] := by
  obtain ⟨c, cs, text, start, parts⟩ := h
  have read := readToken_name start parts (fun _ => nofun : EndsName [])
  rw [List.append_nil, ← text, String.ofList_toList] at read
  exact tokenize_of_token text (not_isLayout_of_isNameStart start) read

/-! ### Symbols -/

theorem symbol_start (symbol : Symbol) :
    ∃ c cs, symbol.text.toList = c :: cs ∧ symbol.text.length = cs.length + 1 ∧ isLayout c = false ∧
      ¬(c = '\'' ∨ c = '"') ∧ c.isDigit = false ∧ isNameStart c = false ∧
      (c = '.' → symbol = .dot ∧ cs = []) := by
  cases symbol <;> exact ⟨_, _, rfl, rfl, by decide, by decide, by decide, by decide, by decide⟩

/-- A symbol is read where it is the longest one; a point must not begin a numeral. -/
theorem readToken_symbol {symbol : Symbol} {c : Char} {cs tail : List Char}
    (text : symbol.text.toList = c :: cs)
    (longest : readSymbol? (symbol.text.toList ++ tail) = some symbol)
    (point : symbol = .dot → tail.head?.any Char.isDigit = false) :
    readToken c (cs ++ tail) = .ok (.symbol symbol, cs.length + 1) := by
  obtain ⟨d, ds, text', length, -, no_quote, no_digit, no_name, dot⟩ := symbol_start symbol
  rw [text] at text'
  cases text'
  have no_numeral : startsNumeral c (cs ++ tail) = false := by
    rw [startsNumeral, no_digit, Bool.false_or]
    by_cases h : c = '.'
    · obtain ⟨rfl, rfl⟩ := dot h
      rw [List.nil_append, point rfl, Bool.and_false]
    · rw [beq_eq_false_iff_ne.2 h, Bool.false_and]
  rw [text] at longest
  rw [readToken, if_neg no_quote, no_numeral, if_neg Bool.false_ne_true, no_name,
    if_neg Bool.false_ne_true, ← List.cons_append, longest]
  dsimp only
  rw [length]

theorem scans_symbol {symbol : Symbol} {tail : List Char}
    (longest : readSymbol? (symbol.text.toList ++ tail) = some symbol)
    (point : symbol = .dot → tail.head?.any Char.isDigit = false) :
    Scans (symbol.text.toList ++ tail) tail (IsToken (.symbol symbol)) := by
  obtain ⟨c, cs, text, -, no_layout, -, -, -, -⟩ := symbol_start symbol
  have read := readToken_symbol text longest point
  rw [text]
  exact Scans.token no_layout read

/-! ### Numerals -/

theorem radixOfLetter?_eq_none {c : Char} (h : isNameStart c = false) :
    Double.radixOfLetter? c = none := by
  unfold Double.radixOfLetter?
  split
  all_goals first | rfl | exact absurd h (by decide)

/-- A text that cannot go on with a numeral in front of it, nor stand right behind one. -/
def EndsNumber (tail : List Char) : Prop := ∀ c ∈ tail.head?, isNamePart c = false ∧ c ≠ '.'

theorem EndsNumber.endsNumeral {tail : List Char} (h : EndsNumber tail) : EndsNumeral tail := by
  intro c hc
  obtain ⟨part, point⟩ := h c hc
  have start := not_isNameStart_of_not_isNamePart part
  refine ⟨not_isDigit_of_not_isNamePart part, point, ?_, ?_⟩
  · rintro rfl
    exact absurd start (by decide)
  · rintro rfl
    exact absurd start (by decide)

theorem exponentText?_numeral (n : Numeral) {tail : List Char} (ht : EndsNumeral tail) :
    exponentText? (n.exponentText true ++ tail) = some (n.exponentText true) := by
  unfold Numeral.exponentText
  cases he : n.exponent with
  | none =>
    cases tail with
    | nil => rfl
    | cons c rest =>
      obtain ⟨-, -, lower, upper⟩ := ht c rfl
      simp only [List.nil_append, exponentText?, lower, upper, or_self, if_false]
  | some power =>
    have hd : IsDigits (Nat.toDigits 10 power.natAbs) := .toDigits _
    have take := takeWhile_run hd.all fun c hc => (ht c hc).1
    have some_digit : (Nat.toDigits 10 power.natAbs).isEmpty = false :=
      List.isEmpty_eq_false_iff.2 hd.ne_nil
    by_cases h : power < 0
    · simp [exponentText?, Numeral.powerText, h, take, some_digit]
    · simp [exponentText?, Numeral.powerText, h, take, some_digit]

theorem isLegacyOctal_whole {n : Numeral} (h : n.NoLeadingZero) : isLegacyOctal n.whole = false := by
  obtain single | head := h
  · rw [single]
    rfl
  · have other : (n.whole.head? == some '0') = false := beq_eq_false_iff_ne.2 head
    rw [isLegacyOctal, other, Bool.and_false, Bool.false_and]

theorem readDecimalNumeral_numeral (n : Numeral) {tail : List Char} (ht : EndsNumeral tail) :
    readDecimalNumeral n.whole (n.fractionText ++ (n.exponentText true ++ tail)) =
      .ok (Double.ofDecimal false n.significand n.scale, (n.text true).length) := by
  have head := n.exponentText_head true ht
  have exponent := exponentText?_numeral n ht
  have value : Double.readDecimal? (n.whole ++ n.fractionText ++ n.exponentText true) =
      some (Double.ofDecimal false n.significand n.scale) := by
    rw [List.append_assoc]
    exact Double.readDecimal?_text n true
  have length : (n.whole ++ n.fractionText ++ n.exponentText true).length = (n.text true).length := by
    rw [List.append_assoc]
    rfl
  generalize n.exponentText true ++ tail = after at head exponent
  unfold readDecimalNumeral
  cases hf : n.fraction with
  | some digits =>
    have fraction : n.fractionText = '.' :: digits := by rw [Numeral.fractionText, hf]
    have run := takeWhile_run (n.fraction_digits digits hf).all fun c hc => (head c hc).1
    have behind : ('.' :: (digits ++ after)).drop ('.' :: digits).length = after := List.drop_left
    rw [fraction] at value length ⊢
    simp only [List.cons_append, run, behind, exponent, value, length]
  | none =>
    have fraction : n.fractionText = [] := by rw [Numeral.fractionText, hf]
    rw [fraction, List.append_nil] at value length
    rw [fraction, List.nil_append]
    split
    · exact absurd rfl (head '.' rfl).2
    · simp only [List.length_nil, List.drop_zero, exponent, List.append_nil, value, length]

theorem readNumeral_numeral {n : Numeral} (hz : n.NoLeadingZero) {tail : List Char} (ht : EndsNumber tail)
    {c : Char} {digits : List Char} (hw : n.whole = c :: digits) :
    readNumeral c (digits ++ (n.fractionText ++ (n.exponentText true ++ tail))) =
      .ok (Double.ofDecimal false n.significand n.scale, (n.text true).length) := by
  have run : ∀ d ∈ digits, d.isDigit := fun d hd => n.whole_digits.all d (hw ▸ List.mem_cons_of_mem c hd)
  have head := n.fractionText_head true ht.endsNumeral
  have decimal := readDecimalNumeral_numeral n ht.endsNumeral
  have no_radix : ∀ d ∈ (n.fractionText ++ (n.exponentText true ++ tail)).head?,
      Double.radixOfLetter? d = none := by
    intro d hd
    unfold Numeral.fractionText Numeral.exponentText at hd
    split at hd
    · cases hd
      rfl
    · split at hd
      · cases hd
        rfl
      · exact radixOfLetter?_eq_none (not_isNameStart_of_not_isNamePart (ht d hd).1)
  generalize n.fractionText ++ (n.exponentText true ++ tail) = after at head decimal no_radix
  have plain : (if isLegacyOctal (c :: (digits ++ after).takeWhile Char.isDigit) then
      .ok (Double.readRadix 8 (c :: (digits ++ after).takeWhile Char.isDigit).tail,
        (c :: (digits ++ after).takeWhile Char.isDigit).length)
      else readDecimalNumeral (c :: (digits ++ after).takeWhile Char.isDigit)
        ((digits ++ after).dropWhile Char.isDigit)) =
      .ok (Double.ofDecimal false n.significand n.scale, (n.text true).length) := by
    rw [takeWhile_run run head, dropWhile_run run head, ← hw, isLegacyOctal_whole hz]
    exact decimal
  unfold readNumeral
  dsimp only
  rw [plain]
  split
  · rename_i letter rest shape
    -- A zero in front is the only digit, so the letter behind it is one that may follow the numeral.
    have decimal_base : (if c = '0' then Double.radixOfLetter? letter else none) = none := by
      split
      · rename_i zero
        obtain single | other := hz
        · rw [hw] at single
          cases single
          exact no_radix letter (by rw [List.nil_append] at shape; rw [shape]; rfl)
        · rw [hw, zero] at other
          exact absurd rfl other
      · rfl
    rw [decimal_base]
  · rfl

/-- A numeral is alone where neither a name nor another numeral begins right behind it. -/
theorem readSeparateNumeral_of_ends {c : Char} {run tail : List Char} {x : Double}
    (number : readNumeral c (run ++ tail) = .ok (x, (c :: run).length)) (ht : EndsName tail) :
    readSeparateNumeral c (run ++ tail) = .ok (x, (c :: run).length) := by
  have behind : (c :: (run ++ tail))[(c :: run).length]? = tail.head? := by
    rw [← List.cons_append, List.getElem?_append_right (Nat.le_refl _), Nat.sub_self,
      List.head?_eq_getElem?]
  rw [readSeparateNumeral, number, ok_bind]
  dsimp only
  rw [behind]
  cases tail with
  | nil => rfl
  | cons next rest =>
    have part := ht next rfl
    have apart : (isNameStart next || next.isDigit) = false := by
      rw [not_isNameStart_of_not_isNamePart part, not_isDigit_of_not_isNamePart part]
      rfl
    exact if_neg (Bool.eq_false_iff.1 apart)

theorem scans_numeral {c : Char} {run tail : List Char} {x : Double} (digit : c.isDigit)
    (number : readNumeral c (run ++ tail) = .ok (x, (c :: run).length)) (ht : EndsName tail) :
    Scans (c :: run ++ tail) tail (IsToken (.number x)) := by
  have no_quote : ¬(c = '\'' ∨ c = '"') := by
    rintro (rfl | rfl) <;> cases digit
  apply Scans.token (not_isLayout_of_isDigit digit)
  rw [readToken, if_neg no_quote, startsNumeral, digit, Bool.true_or, if_pos rfl,
    readSeparateNumeral_of_ends number ht]
  rfl

theorem scans_number {x : Double} (finite : x.isFinite) (sign : x.isNegative = false) {tail : List Char}
    (ht : EndsNumber tail) : Scans (x.textChars ++ tail) tail (IsToken (.number x)) := by
  obtain ⟨n, text, value, hz⟩ := Double.textChars_numeral finite sign
  obtain ⟨c, digits, hw⟩ := List.exists_cons_of_ne_nil n.whole_digits.ne_nil
  have digit : c.isDigit := n.whole_digits.all c (hw ▸ List.mem_cons_self)
  have shape : n.text true = c :: (digits ++ (n.fractionText ++ n.exponentText true)) := by
    rw [Numeral.text, hw, List.cons_append]
  have number := readNumeral_numeral hz ht hw
  have rest : digits ++ (n.fractionText ++ (n.exponentText true ++ tail)) =
      digits ++ (n.fractionText ++ n.exponentText true) ++ tail := by simp only [List.append_assoc]
  rw [value, rest, shape] at number
  rw [text, shape]
  exact scans_numeral digit number fun d hd => (ht d hd).1

end TemplateExpr
