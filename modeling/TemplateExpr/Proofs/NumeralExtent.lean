import TemplateExpr.Proofs.TokenText

/-!
# The extent of a numeral

A numeral is a part at the front of a text, and reading it looks at one character behind it at most.  So it
is found in the same way in front of every text that begins as the one behind it does, or with layout, or
that is empty.
-/

namespace TemplateExpr

/-! ### What may stand behind a token -/

/-- A text that may stand behind a token in place of another one: it is empty, or it begins as the other
does, or with layout. -/
def StandsFor (tail' tail : List Char) : Prop := ∀ c ∈ tail'.head?, isLayout c ∨ c ∈ tail.head?

namespace StandsFor

variable {tail tail' : List Char}

theorem layout {c : Char} (hc : isLayout c) (rest tail : List Char) : StandsFor (c :: rest) tail := by
  intro d hd
  cases hd
  exact .inl hc

theorem of_head (h : tail'.head? = tail.head?) : StandsFor tail' tail := fun _ hc => .inr (h ▸ hc)

theorem append (h : StandsFor tail' tail) (cs : List Char) : StandsFor (cs ++ tail') (cs ++ tail) := by
  cases cs with
  | nil => exact h
  | cons c cs => exact .of_head rfl

/-- A character that no layout is and the one text does not begin with does not begin the other. -/
theorem head (h : StandsFor tail' tail) {p : Char → Bool} (blank : ∀ c, isLayout c → p c = false)
    (hp : ∀ c ∈ tail.head?, p c = false) : ∀ c ∈ tail'.head?, p c = false := by
  intro c hc
  obtain hlayout | hsame := h c hc
  · exact blank c hlayout
  · exact hp c hsame

end StandsFor

/-- What a reader finds in a text: a part at its front, which it finds as well in front of all that may
stand behind that part.  The length it yields counts `before` characters more. -/
def FoundIn (read : List Char → Except ε (α × Nat)) (text : List Char) (before : Nat) (a : α)
    (length : Nat) : Prop :=
  ∃ cs tail, text = cs ++ tail ∧ length = cs.length + before ∧
    ∀ tail', StandsFor tail' tail → read (cs ++ tail') = .ok (a, length)

/-! ### Characters that no layout is -/

theorem ne_of_isLayout {c d : Char} (h : isLayout c) (hd : isLayout d = false) : c ≠ d := by
  rintro rfl
  rw [h] at hd
  cases hd

theorem not_isDigit_of_isLayout {c : Char} (h : isLayout c) : c.isDigit = false :=
  Bool.eq_false_iff.2 fun digit => absurd h (by rw [not_isLayout_of_isDigit digit]; decide)

-- As with the letters that begin a name, the tables are tried on every blank.
theorem not_isNamePart_of_isLayout {c : Char} (h : isLayout c) : isNamePart c = false := by
  have all : ∀ n ∈ layoutCodes, isNamePart (Char.ofNat n) = false := by decide +kernel
  exact forall_layout all c h

theorem code_of_isDigitIn {radix : Nat} {c : Char} (h : isDigitIn radix c) :
    (0x30 ≤ c.toNat ∧ c.toNat ≤ 0x39) ∨ (0x61 ≤ c.toNat ∧ c.toNat ≤ 0x66) ∨
      (0x41 ≤ c.toNat ∧ c.toNat ≤ 0x46) := by
  simp only [isDigitIn, digitValue?, Option.isSome_ite, Char.le_def, UInt32.le_iff_toNat_le] at h
  change (if 48 ≤ c.toNat ∧ c.toNat ≤ 57 then c.toNat - 48
    else if 97 ≤ c.toNat ∧ c.toNat ≤ 102 then c.toNat - 97 + 10
    else if 65 ≤ c.toNat ∧ c.toNat ≤ 70 then c.toNat - 65 + 10 else radix) < radix at h
  split at h
  · omega
  · split at h
    · omega
    · split at h <;> omega

theorem not_isDigitIn_of_isLayout (radix : Nat) {c : Char} (h : isLayout c) : isDigitIn radix c = false := by
  refine Bool.eq_false_iff.2 fun digit => ?_
  have code := code_of_isDigitIn digit
  have codes := toNat_mem_layoutCodes h
  simp only [layoutCodes, List.mem_cons, List.not_mem_nil, or_false] at codes
  omega

/-! ### Numerals -/

theorem exponentText?_other {rest : List Char} (h : ∀ c ∈ rest.head?, (c == 'e' || c == 'E') = false) :
    exponentText? rest = some [] := by
  cases rest with
  | nil => rfl
  | cons c rest =>
    have other : ¬(c = 'e' ∨ c = 'E') := by simpa using h c rfl
    rw [exponentText?, if_neg other]

/-- The sign of a power of ten, if one follows. -/
def signOf (rest : List Char) : List Char := (rest.take 1).filter fun c => c == '+' || c == '-'

theorem signOf_append (rest : List Char) : ∃ after, rest = signOf rest ++ after := by
  cases rest with
  | nil => exact ⟨[], rfl⟩
  | cons c rest =>
    cases hc : c == '+' || c == '-' with
    | true => exact ⟨rest, by simp [signOf, hc]⟩
    | false => exact ⟨c :: rest, by simp [signOf, hc]⟩

theorem signOf_eq_of_head? {rest rest' : List Char} (h : rest'.head? = rest.head?) :
    signOf rest' = signOf rest := by
  rw [signOf, signOf, List.take_one, List.take_one, h]

theorem exponentText?_power {e : Char} (he : e = 'e' ∨ e = 'E') {sign digits tail : List Char}
    (hsign : signOf (sign ++ (digits ++ tail)) = sign) (hd : ∀ c ∈ digits, c.isDigit)
    (ht : ∀ c ∈ tail.head?, c.isDigit = false) :
    exponentText? (e :: (sign ++ (digits ++ tail))) =
      if digits.isEmpty then none else some (e :: (sign ++ digits)) := by
  unfold signOf at hsign
  simp only [exponentText?, if_pos he, hsign, List.drop_left, takeWhile_run hd ht]

theorem exponentText?_found {text exponent : List Char} (h : exponentText? text = some exponent) :
    ∃ tail, text = exponent ++ tail ∧
      ∀ tail', StandsFor tail' tail → exponentText? (exponent ++ tail') = some exponent := by
  by_cases letter : ∃ e rest, text = e :: rest ∧ (e = 'e' ∨ e = 'E')
  · obtain ⟨e, rest, rfl, he⟩ := letter
    obtain ⟨after, hafter⟩ := signOf_append rest
    obtain ⟨digits, tail, rfl, hd, ht⟩ := exists_run Char.isDigit after
    generalize hsign : signOf rest = sign at hafter
    subst hafter
    rw [exponentText?_power he hsign hd ht] at h
    obtain ⟨nonempty, h⟩ := Option.ite_none_left_eq_some.1 h
    cases h
    refine ⟨tail, by simp, fun tail' htail => ?_⟩
    -- The digits keep the sign, or its absence, as it is.
    have same : (sign ++ (digits ++ tail')).head? = (sign ++ (digits ++ tail)).head? := by
      obtain ⟨d, ds, rfl⟩ := List.exists_cons_of_ne_nil (List.isEmpty_eq_false_iff.1 (Bool.eq_false_iff.2 nonempty))
      cases sign <;> rfl
    have power := exponentText?_power he ((signOf_eq_of_head? same).trans hsign) hd
      (htail.head (fun _ => not_isDigit_of_isLayout) ht)
    rw [if_neg nonempty] at power
    simpa using power
  · have other : ∀ c ∈ text.head?, (c == 'e' || c == 'E') = false := by
      intro c hc
      obtain ⟨rest, rfl⟩ := List.head?_eq_some_iff.1 hc
      simpa using fun same => letter ⟨c, rest, rfl, same⟩
    rw [exponentText?_other other] at h
    cases h
    refine ⟨text, rfl, fun tail' htail => exponentText?_other (htail.head ?_ other)⟩
    intro c hc
    rw [beq_eq_false_iff_ne.2 (ne_of_isLayout hc (by decide)),
      beq_eq_false_iff_ne.2 (ne_of_isLayout hc (by decide))]
    rfl

/-- The point of a numeral and the digits behind it, if a point follows. -/
def fractionOf (rest : List Char) : List Char :=
  if rest.head? = some '.' then '.' :: rest.tail.takeWhile Char.isDigit else []

theorem fractionOf_point (digits : List Char) :
    fractionOf ('.' :: digits) = '.' :: digits.takeWhile Char.isDigit := by
  rw [fractionOf, List.head?_cons, if_pos rfl, List.tail_cons]

theorem fractionOf_other {rest : List Char} (h : ∀ c ∈ rest.head?, (c == '.') = false) :
    fractionOf rest = [] := by
  refine if_neg fun point => ?_
  cases h '.' point

theorem fractionOf_found (rest : List Char) :
    ∃ tail, rest = fractionOf rest ++ tail ∧
      ∀ tail', StandsFor tail' tail → fractionOf (fractionOf rest ++ tail') = fractionOf rest := by
  by_cases point : ∃ after, rest = '.' :: after
  · obtain ⟨after, rfl⟩ := point
    obtain ⟨digits, tail, rfl, hd, ht⟩ := exists_run Char.isDigit after
    have found {tail : List Char} (ht : ∀ c ∈ tail.head?, c.isDigit = false) :
        fractionOf ('.' :: (digits ++ tail)) = '.' :: digits := by
      rw [fractionOf_point, takeWhile_run hd ht]
    refine ⟨tail, by rw [found ht, List.cons_append], fun tail' htail => ?_⟩
    rw [found ht, List.cons_append, found (htail.head (fun _ => not_isDigit_of_isLayout) ht)]
  · have other : ∀ c ∈ rest.head?, (c == '.') = false := by
      intro c hc
      obtain ⟨after, rfl⟩ := List.head?_eq_some_iff.1 hc
      exact beq_eq_false_iff_ne.2 fun same => point ⟨after, congrArg (· :: after) same⟩
    rw [fractionOf_other other]
    refine ⟨rest, rfl, fun tail' htail => fractionOf_other (htail.head ?_ other)⟩
    exact fun c hc => beq_eq_false_iff_ne.2 (ne_of_isLayout hc (by decide))

/-- A decimal numeral with a certain fraction at the front of what is behind its first digits. -/
def readWithFraction (lead rest fraction : List Char) : Except ScanFault (Double × Nat) :=
  match exponentText? (rest.drop fraction.length) with
  | none => .error (.badNumeral, 0)
  | some exponent =>
    let text := lead ++ fraction ++ exponent
    match Double.readDecimal? text with
    | some value => .ok (value, text.length)
    | none => .error (.badNumeral, 0)

theorem readDecimalNumeral_eq (lead rest : List Char) :
    readDecimalNumeral lead rest = readWithFraction lead rest (fractionOf rest) := by
  have fraction : ∃ f, fractionOf rest = f ∧ readDecimalNumeral lead rest = readWithFraction lead rest f := by
    unfold readDecimalNumeral
    split
    · exact ⟨_, fractionOf_point _, rfl⟩
    · rename_i other
      refine ⟨[], if_neg fun point => ?_, rfl⟩
      obtain ⟨digits, shape⟩ := List.head?_eq_some_iff.1 point
      exact other digits shape
  obtain ⟨f, rfl, same⟩ := fraction
  exact same

theorem readDecimalNumeral_eq_ok_iff {lead rest : List Char} {x : Double} {length : Nat} :
    readDecimalNumeral lead rest = .ok (x, length) ↔ ∃ exponent,
      exponentText? (rest.drop (fractionOf rest).length) = some exponent ∧
      Double.readDecimal? (lead ++ fractionOf rest ++ exponent) = some x ∧
      length = (lead ++ fractionOf rest ++ exponent).length := by
  rw [readDecimalNumeral_eq, readWithFraction]
  cases exponentText? (rest.drop (fractionOf rest).length) with
  | none => simp
  | some exponent =>
    simp only [Option.some.injEq, exists_eq_left']
    cases Double.readDecimal? (lead ++ fractionOf rest ++ exponent) with
    | none => simp
    | some value => simp [eq_comm]

theorem readDecimalNumeral_found {lead rest : List Char} {x : Double} {length : Nat}
    (h : readDecimalNumeral lead rest = .ok (x, length)) :
    FoundIn (readDecimalNumeral lead) rest lead.length x length := by
  obtain ⟨exponent, hexponent, value, rfl⟩ := readDecimalNumeral_eq_ok_iff.1 h
  obtain ⟨after, hafter, fraction⟩ := fractionOf_found rest
  generalize fractionOf rest = f at *
  subst hafter
  rw [List.drop_left] at hexponent
  obtain ⟨tail, rfl, power⟩ := exponentText?_found hexponent
  refine ⟨f ++ exponent, tail, (List.append_assoc ..).symm, ?_, fun tail' htail => ?_⟩
  · simp only [List.length_append]
    omega
  · have same : fractionOf (f ++ exponent ++ tail') = f := by
      rw [List.append_assoc]
      exact fraction _ (htail.append exponent)
    refine readDecimalNumeral_eq_ok_iff.2 ⟨exponent, ?_, ?_, ?_⟩
    · rw [same, List.append_assoc, List.drop_left, power tail' htail]
    · rw [same, value]
    · rw [same]

theorem readRadixNumeral_found {radix : Nat} {rest : List Char} {x : Double} {length : Nat}
    (h : readRadixNumeral radix rest = .ok (x, length)) :
    FoundIn (readRadixNumeral radix) rest 2 x length := by
  obtain ⟨digits, tail, rfl, hd, ht⟩ := exists_run (isDigitIn radix) rest
  refine ⟨digits, tail, rfl, ?_, fun tail' htail => ?_⟩
  · simp only [readRadixNumeral, takeWhile_run hd ht] at h
    split at h
    · cases h
    · cases h
      rfl
  · have ht' := htail.head (fun _ => not_isDigitIn_of_isLayout radix) ht
    simp only [readRadixNumeral, takeWhile_run hd ht, takeWhile_run hd ht'] at h ⊢
    exact h

/-- A numeral that announces no radix. -/
def readPlainNumeral (c : Char) (rest : List Char) : Except ScanFault (Double × Nat) :=
  let lead := c :: rest.takeWhile Char.isDigit
  if isLegacyOctal lead then .ok (Double.readRadix 8 lead.tail, lead.length)
  else readDecimalNumeral lead (rest.dropWhile Char.isDigit)

theorem readPlainNumeral_found {c : Char} {rest : List Char} {x : Double} {length : Nat}
    (h : readPlainNumeral c rest = .ok (x, length)) : FoundIn (readPlainNumeral c) rest 1 x length := by
  obtain ⟨digits, after, rfl, hd, ht⟩ := exists_run Char.isDigit rest
  have split {tail : List Char} (ht : ∀ d ∈ tail.head?, d.isDigit = false) :
      readPlainNumeral c (digits ++ tail) =
        if isLegacyOctal (c :: digits) then .ok (Double.readRadix 8 digits, digits.length + 1)
        else readDecimalNumeral (c :: digits) tail := by
    simp only [readPlainNumeral, takeWhile_run hd ht, dropWhile_run hd ht]
    rfl
  have blank : ∀ d, isLayout d → d.isDigit = false := fun _ => not_isDigit_of_isLayout
  rw [split ht] at h
  by_cases octal : isLegacyOctal (c :: digits)
  · rw [if_pos octal] at h
    cases h
    refine ⟨digits, after, rfl, rfl, fun tail' htail => ?_⟩
    rw [split (htail.head blank ht), if_pos octal]
  · rw [if_neg octal] at h
    obtain ⟨cs, tail, rfl, rfl, found⟩ := readDecimalNumeral_found h
    refine ⟨digits ++ cs, tail, (List.append_assoc ..).symm, ?_, fun tail' htail => ?_⟩
    · simp only [List.length_append, List.length_cons]
      omega
    · rw [List.append_assoc, split ((htail.append cs).head blank ht), if_neg octal, found tail' htail]

/-- The radix of a numeral that begins with `c`, if the character behind it announces one. -/
def announcedRadix? (c : Char) (rest : List Char) : Option Nat :=
  if c = '0' then rest.head?.bind Double.radixOfLetter? else none

theorem readNumeral_eq (c : Char) (rest : List Char) :
    readNumeral c rest =
      (announcedRadix? c rest).elim (readPlainNumeral c rest) fun radix => readRadixNumeral radix rest.tail := by
  unfold readNumeral announcedRadix?
  cases rest with
  | nil => by_cases zero : c = '0' <;> simp only [zero, if_true, if_false] <;> rfl
  | cons letter digits =>
    by_cases zero : c = '0'
    · simp only [if_pos zero, List.head?_cons, Option.bind_some]
      cases Double.radixOfLetter? letter <;> rfl
    · simp only [if_neg zero]
      rfl

theorem not_radix_of_isLayout {c : Char} (h : isLayout c) : Double.radixOfLetter? c = none :=
  radixOfLetter?_eq_none (not_isNameStart_of_isLayout h)

theorem readNumeral_found {c : Char} {rest : List Char} {x : Double} {length : Nat}
    (h : readNumeral c rest = .ok (x, length)) : FoundIn (readNumeral c) rest 1 x length := by
  rw [readNumeral_eq] at h
  cases hradix : announcedRadix? c rest with
  | none =>
    rw [hradix] at h
    obtain ⟨cs, tail, rfl, rfl, found⟩ := readPlainNumeral_found h
    refine ⟨cs, tail, rfl, rfl, fun tail' htail => ?_⟩
    have same : announcedRadix? c (cs ++ tail') = none := by
      unfold announcedRadix? at hradix ⊢
      split
      · rename_i zero
        rw [if_pos zero, Option.bind_eq_none_iff] at hradix
        rw [Option.bind_eq_none_iff]
        intro letter hletter
        obtain hlayout | hsame := htail.append cs letter hletter
        · exact not_radix_of_isLayout hlayout
        · exact hradix letter hsame
      · rfl
    rw [readNumeral_eq, same]
    exact found tail' htail
  | some radix =>
    rw [hradix] at h
    obtain ⟨zero, announced⟩ := Option.ite_none_right_eq_some.1 hradix
    cases rest with
    | nil => cases announced
    | cons letter digits =>
      obtain ⟨cs, tail, rfl, rfl, found⟩ := readRadixNumeral_found h
      refine ⟨letter :: cs, tail, rfl, rfl, fun tail' htail => ?_⟩
      rw [readNumeral_eq]
      exact hradix ▸ found tail' htail

theorem head?_any_eq_false_iff {p : Char → Bool} {cs : List Char} :
    cs.head?.any p = false ↔ ∀ c ∈ cs.head?, p c = false := by
  cases cs <;> simp

theorem readSeparateNumeral_of_read {c : Char} {cs tail : List Char} {x : Double}
    (read : readNumeral c (cs ++ tail) = .ok (x, cs.length + 1)) :
    readSeparateNumeral c (cs ++ tail) =
      if tail.head?.any fun d => isNameStart d || d.isDigit then .error (.nameAfterNumeral, cs.length + 1)
      else .ok (x, cs.length + 1) := by
  have behind : (c :: (cs ++ tail))[cs.length + 1]? = tail.head? := by
    rw [List.getElem?_cons_succ, List.getElem?_append_right (Nat.le_refl _), Nat.sub_self,
      List.head?_eq_getElem?]
  rw [readSeparateNumeral, read, ok_bind]
  dsimp only
  rw [behind]
  cases tail <;> rfl

theorem readNumeral_of_separate {c : Char} {rest : List Char} {x : Double} {length : Nat}
    (h : readSeparateNumeral c rest = .ok (x, length)) : readNumeral c rest = .ok (x, length) := by
  obtain ⟨⟨y, n⟩, read, next⟩ := bind_ok h
  dsimp only at next
  split at next
  · split at next
    · cases next
    · cases next
      exact read
  · cases next
    exact read

theorem readSeparateNumeral_found {c : Char} {rest : List Char} {x : Double} {length : Nat}
    (h : readSeparateNumeral c rest = .ok (x, length)) :
    FoundIn (readSeparateNumeral c) rest 1 x length := by
  obtain ⟨cs, tail, rfl, rfl, found⟩ := readNumeral_found (readNumeral_of_separate h)
  rw [readSeparateNumeral_of_read (readNumeral_of_separate h)] at h
  split at h
  · cases h
  · rename_i apart
    refine ⟨cs, tail, rfl, rfl, fun tail' htail => ?_⟩
    have blank : ∀ d, isLayout d → (isNameStart d || d.isDigit) = false := by
      intro d hd
      rw [not_isNameStart_of_isLayout hd, not_isDigit_of_isLayout hd]
      rfl
    have apart' := htail.head blank (head?_any_eq_false_iff.1 (Bool.eq_false_iff.2 apart))
    rw [readSeparateNumeral_of_read (found tail' htail), head?_any_eq_false_iff.2 apart']
    rfl

end TemplateExpr
