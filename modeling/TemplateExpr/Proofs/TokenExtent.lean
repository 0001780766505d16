import TemplateExpr.Proofs.NumeralExtent
import TemplateExpr.Proofs.QuotedText

/-!
# The extent of a token

Like a numeral, each token is found in the same way in front of all that may stand behind it.  String
literals are the simplest in this: they end with their quote, so nothing behind them matters, and what is
behind an escape is always a part of the literal.
-/

namespace TemplateExpr

/-! ### Escapes and string literals -/

theorem readHex?_found {count n : Nat} {text : List Char} (h : readHex? count text = some n) :
    ∃ digits tail, text = digits ++ tail ∧ digits.length = count ∧
      ∀ tail', readHex? count (digits ++ tail') = some n := by
  unfold readHex? at h
  obtain ⟨enough, number⟩ := Option.ite_none_right_eq_some.1 h
  refine ⟨text.take count, text.drop count, (List.take_append_drop ..).symm, enough, fun tail' => ?_⟩
  rw [readHex?, List.take_left' enough, if_pos enough, number]

theorem readUnicodeEscape_unclosed {digits : List Char} (h : '\x7d' ∉ digits) :
    readUnicodeEscape ('\x7b' :: digits) = .error .badUnicodeEscape := by
  have run : (digits ++ []).takeWhile (· != '\x7d') = digits :=
    takeWhile_run (fun c hc => bne_iff_ne.2 fun same => h (same ▸ hc)) (fun _ => nofun)
  rw [List.append_nil] at run
  simp only [readUnicodeEscape, run, beq_self_eq_true, Bool.or_true, Bool.true_or, if_true]
  cases saturatedHex? digits <;> rfl

theorem readUnicodeEscape_found {text : List Char} {piece : StringPiece} {length : Nat}
    (h : readUnicodeEscape text = .ok (piece, length)) :
    ∃ cs tail, text = cs ++ tail ∧ length = cs.length ∧
      ∀ tail', readUnicodeEscape (cs ++ tail') = .ok (piece, length) := by
  by_cases brace : text.head? = some '\x7b'
  · obtain ⟨body, rfl⟩ := List.head?_eq_some_iff.1 brace
    obtain ⟨digits, after, rfl, hd, ht⟩ := exists_run (· != '\x7d') body
    have no_brace : '\x7d' ∉ digits := fun inside => absurd rfl (bne_iff_ne.1 (hd _ inside))
    cases after with
    | nil =>
      rw [List.append_nil, readUnicodeEscape_unclosed no_brace] at h
      cases h
    | cons c tail =>
      have closing : c = '\x7d' := by simpa using ht c rfl
      subst closing
      have read := readUnicodeEscape_braces no_brace
      cases number : saturatedHex? digits with
      | none =>
        rw [read, number] at h
        cases h
      | some n =>
        simp only [number, Option.elim_some] at read
        rw [read] at h
        split at h
        · cases h
        · rename_i fits
          cases h
          refine ⟨'\x7b' :: (digits ++ ['\x7d']), tail, by simp, by simp, fun tail' => ?_⟩
          rw [List.cons_append, List.append_assoc, List.singleton_append, read, if_neg fits]
  · rw [readUnicodeEscape_plain brace] at h
    cases number : readHex? 4 text with
    | none => rw [number] at h; cases h
    | some n =>
      rw [number] at h
      cases h
      obtain ⟨digits, tail, rfl, four, found⟩ := readHex?_found number
      refine ⟨digits, tail, rfl, four.symm, fun tail' => ?_⟩
      have same : (digits ++ tail').head? ≠ some '\x7b' := by
        cases digits with
        | nil => cases four
        | cons d digits => exact brace
      rw [readUnicodeEscape_plain same, found]
      rfl

/-- The characters that have a meaning of their own behind a backslash. -/
def escapeLetters : List Char := ['n', 't', 'r', 'b', 'f', 'v', 'x', 'u', '\r']

theorem readEscape_other {c : Char} (h : c ∉ escapeLetters) (rest : List Char) :
    readEscape (c :: rest) =
      if isDigitIn 8 c then
        .ok (.char (Utf16.charOf (Nat.ofDigitChars 8 (octalDigits c rest) 0)), (octalDigits c rest).length)
      else if isLineEnd c then .ok (.continuation, 1)
      else .ok (.char c, 1) := by
  simp only [escapeLetters, List.mem_cons, List.not_mem_nil, or_false, not_or] at h
  obtain ⟨n, t, r, b, f, v, x, u, newline⟩ := h
  simp only [readEscape]

/-- A bounded run of octal digits ends at its bound or where other characters begin. -/
theorem octalDigits_found (c : Char) (rest : List Char) :
    ∃ digits tail, rest = digits ++ tail ∧ octalDigits c rest = c :: digits ∧
      ∀ tail' : List Char, tail'.head? = tail.head? → octalDigits c (digits ++ tail') = c :: digits := by
  unfold octalDigits
  generalize (if c ≤ '3' then 2 else 1) = most
  induction rest generalizing most with
  | nil =>
    refine ⟨[], [], rfl, by simp, fun tail' htail => ?_⟩
    cases List.head?_eq_none_iff.1 htail
    simp
  | cons d rest ih =>
    cases most with
    | zero => exact ⟨[], d :: rest, rfl, rfl, fun tail' _ => rfl⟩
    | succ most =>
      by_cases octal : isDigitIn 8 d
      · obtain ⟨digits, tail, rfl, run, found⟩ := ih most
        refine ⟨d :: digits, tail, rfl, ?_, fun tail' htail => ?_⟩
        · simpa [octal] using run
        · simpa [octal] using found tail' htail
      · refine ⟨[], d :: rest, rfl, by simp [octal], fun tail' htail => ?_⟩
        obtain ⟨after, rfl⟩ := List.head?_eq_some_iff.1 htail
        simp [octal]

theorem readEscape_hex (rest : List Char) :
    readEscape ('x' :: rest) =
      (readHex? 2 rest).elim (.error .badHexEscape) fun n => .ok (.char (Utf16.charOf n), 3) := by
  cases number : readHex? 2 rest <;> simp [readEscape, number]

theorem readEscape_return (rest : List Char) :
    readEscape ('\r' :: rest) = .ok (.continuation, if rest.head? = some '\n' then 2 else 1) := rfl

/-- An escape is read in the same way in front of every text that begins as the one behind it does. -/
theorem readEscape_found {text : List Char} {piece : StringPiece} {length : Nat}
    (h : readEscape text = .ok (piece, length)) :
    ∃ cs tail, text = cs ++ tail ∧ length = cs.length ∧
      ∀ tail' : List Char, tail'.head? = tail.head? → readEscape (cs ++ tail') = .ok (piece, length) := by
  cases text with
  | nil => cases h
  | cons c rest =>
    by_cases special : c ∈ escapeLetters
    · simp only [escapeLetters, List.mem_cons, List.not_mem_nil, or_false] at special
      rcases special with rfl | rfl | rfl | rfl | rfl | rfl | rfl | rfl | rfl
      · cases h; exact ⟨['n'], rest, rfl, rfl, fun _ _ => rfl⟩
      · cases h; exact ⟨['t'], rest, rfl, rfl, fun _ _ => rfl⟩
      · cases h; exact ⟨['r'], rest, rfl, rfl, fun _ _ => rfl⟩
      · cases h; exact ⟨['b'], rest, rfl, rfl, fun _ _ => rfl⟩
      · cases h; exact ⟨['f'], rest, rfl, rfl, fun _ _ => rfl⟩
      · cases h; exact ⟨['v'], rest, rfl, rfl, fun _ _ => rfl⟩
      · have read := readEscape_hex
        rw [read] at h
        cases number : readHex? 2 rest with
        | none => rw [number] at h; cases h
        | some n =>
          rw [number] at h
          cases h
          obtain ⟨digits, tail, rfl, two, found⟩ := readHex?_found number
          refine ⟨'x' :: digits, tail, rfl, by rw [List.length_cons, two], fun tail' _ => ?_⟩
          rw [List.cons_append, read, found]
          rfl
      · obtain ⟨⟨piece', n⟩, hread, same⟩ := map_ok (show (readUnicodeEscape rest).map _ = _ from h)
        cases same
        obtain ⟨cs, tail, rfl, rfl, found⟩ := readUnicodeEscape_found hread
        refine ⟨'u' :: cs, tail, rfl, rfl, fun tail' _ => ?_⟩
        show (readUnicodeEscape (cs ++ tail')).map _ = _
        rw [found]
        rfl
      · rw [readEscape_return] at h
        by_cases feed : rest.head? = some '\n'
        · rw [if_pos feed] at h
          cases h
          obtain ⟨tail, rfl⟩ := List.head?_eq_some_iff.1 feed
          exact ⟨['\r', '\n'], tail, rfl, rfl, fun _ _ => rfl⟩
        · rw [if_neg feed] at h
          cases h
          refine ⟨['\r'], rest, rfl, rfl, fun tail' htail => ?_⟩
          rw [List.singleton_append, readEscape_return, htail, if_neg feed]
    · rw [readEscape_other special] at h
      split at h
      · rename_i octal
        cases h
        obtain ⟨digits, tail, rfl, run, found⟩ := octalDigits_found c rest
        refine ⟨c :: digits, tail, rfl, by rw [run], fun tail' htail => ?_⟩
        rw [List.cons_append, readEscape_other special, if_pos octal, found tail' htail, run]
      · rename_i octal
        refine ⟨[c], rest, rfl, ?_, fun tail' _ => ?_⟩
        · split at h <;> cases h <;> rfl
        · rw [List.singleton_append, readEscape_other special, if_neg octal, h]

theorem readStringBody_found {quote : Char} {read length : Nat} {done pieces : List StringPiece}
    {text : List Char} (h : readStringBody quote read done text = .ok (pieces, length)) :
    ∃ cs tail, text = cs ++ quote :: tail ∧ length = read + cs.length + 1 ∧
      ∀ tail', readStringBody quote read done (cs ++ quote :: tail') = .ok (pieces, length) := by
  fun_induction readStringBody quote read done text with
  | case1 => cases h
  | case2 read done rest =>
    cases h
    refine ⟨[], rest, rfl, rfl, fun tail' => ?_⟩
    rw [List.nil_append, readStringBody, if_pos rfl]
  | case3 => cases h
  | case4 read done rest piece n hescape noQuote ih =>
    obtain ⟨run, after, rfl, rfl, escape⟩ := readEscape_found hescape
    rw [List.drop_left] at h ih
    obtain ⟨cs, tail, rfl, rfl, found⟩ := ih h
    refine ⟨'\\' :: (run ++ cs), tail, by simp, ?_, fun tail' => ?_⟩
    · simp only [List.length_cons, List.length_append]
      omega
    · have same : (cs ++ quote :: tail').head? = (cs ++ quote :: tail).head? := by cases cs <;> rfl
      rw [List.cons_append, List.append_assoc, readStringBody, if_neg noQuote, if_pos rfl, escape _ same]
      dsimp only
      rw [List.drop_left, found]
  | case5 => cases h
  | case6 read done c rest noQuote noEscape noEnd ih =>
    obtain ⟨cs, tail, rfl, rfl, found⟩ := ih h
    refine ⟨c :: cs, tail, rfl, ?_, fun tail' => ?_⟩
    · simp only [List.length_cons]
      omega
    · rw [List.cons_append, readStringBody, if_neg noQuote, if_neg noEscape, if_neg noEnd, found]

/-! ### Symbols -/

/-- The character that makes a longer symbol of a symbol in front of it. -/
def Symbol.longer? : Symbol → Option Char
  | question => some '?'
  | bang => some '='
  | notEq => some '='
  | eq => some '='
  | lt => some '='
  | gt => some '='
  | _ => none

theorem readSymbol?_text {symbol : Symbol} {tail : List Char}
    (h : ∀ c ∈ tail.head?, symbol.longer? ≠ some c) :
    readSymbol? (symbol.text.toList ++ tail) = some symbol := by
  cases tail with
  | nil => cases symbol <;> rfl
  | cons c tail =>
    have other {d : Char} (hd : symbol.longer? = some d) : c ≠ d := fun same => h c rfl (same ▸ hd)
    cases symbol with
    | question => simp [Symbol.text, readSymbol?, other rfl]
    | bang => simp [Symbol.text, readSymbol?, other rfl]
    | notEq => simp [Symbol.text, readSymbol?, other rfl]
    | eq => simp [Symbol.text, readSymbol?, other rfl]
    | lt => simp [Symbol.text, readSymbol?, other rfl]
    | gt => simp [Symbol.text, readSymbol?, other rfl]
    | _ => rfl

theorem readSymbol?_eq_some {text : List Char} {symbol : Symbol} (h : readSymbol? text = some symbol) :
    ∃ tail, text = symbol.text.toList ++ tail ∧ ∀ c ∈ tail.head?, symbol.longer? ≠ some c := by
  have stop {c : Char} {rest : List Char} (other : ∀ tail, rest = c :: tail → False) :
      ∀ d ∈ rest.head?, some c ≠ some d := by
    rintro d hd ⟨⟩
    obtain ⟨tail, rfl⟩ := List.head?_eq_some_iff.1 hd
    exact other tail rfl
  unfold readSymbol? at h
  split at h <;> cases h
  all_goals
    refine ⟨_, rfl, ?_⟩
    first
    | exact stop ‹_›
    | exact fun _ _ hc => by cases hc

theorem longer?_ne_of_isLayout (symbol : Symbol) {c : Char} (h : isLayout c) : symbol.longer? ≠ some c := by
  cases symbol with
  | question => exact fun same => ne_of_isLayout h (by decide) (Option.some.inj same).symm
  | bang => exact fun same => ne_of_isLayout h (by decide) (Option.some.inj same).symm
  | notEq => exact fun same => ne_of_isLayout h (by decide) (Option.some.inj same).symm
  | eq => exact fun same => ne_of_isLayout h (by decide) (Option.some.inj same).symm
  | lt => exact fun same => ne_of_isLayout h (by decide) (Option.some.inj same).symm
  | gt => exact fun same => ne_of_isLayout h (by decide) (Option.some.inj same).symm
  | _ => exact fun same => by cases same

/-! ### Tokens -/

theorem not_startsNumeral_of_standsFor {c : Char} {rest rest' : List Char} (h : startsNumeral c rest = false)
    (hrest : StandsFor rest' rest) : startsNumeral c rest' = false := by
  simp only [startsNumeral, Bool.or_eq_false_iff, Bool.and_eq_false_iff, head?_any_eq_false_iff] at h ⊢
  exact ⟨h.1, h.2.imp_right fun hd => hrest.head (fun _ => not_isDigit_of_isLayout) hd⟩

theorem length_readPlainNumeral {c : Char} {rest : List Char} {x : Double} {length : Nat}
    (h : readPlainNumeral c rest = .ok (x, length)) : (rest.takeWhile Char.isDigit).length < length := by
  unfold readPlainNumeral at h
  dsimp only at h
  split at h
  · cases h
    exact Nat.lt_succ_self _
  · obtain ⟨exponent, -, -, rfl⟩ := readDecimalNumeral_eq_ok_iff.1 h
    simp only [List.length_append, List.length_cons]
    omega

/-- What begins a numeral begins one whatever stands behind it. -/
theorem startsNumeral_of_read {c : Char} {cs tail : List Char} {x : Double}
    (h : startsNumeral c (cs ++ tail)) (read : readNumeral c (cs ++ tail) = .ok (x, cs.length + 1))
    (tail' : List Char) : startsNumeral c (cs ++ tail') := by
  cases digit : c.isDigit with
  | true => rw [startsNumeral, digit, Bool.true_or]
  | false =>
    cases cs with
    | cons d cs => exact h
    | nil =>
      -- A point alone is no numeral: the digit behind it belongs to what has been read.
      rw [startsNumeral, digit, Bool.false_or, Bool.and_eq_true, List.nil_append] at h
      obtain ⟨point, first⟩ := h
      have plain : announcedRadix? c tail = none := if_neg (by rw [beq_iff_eq.1 point]; decide)
      rw [List.nil_append, readNumeral_eq, plain] at read
      have long := length_readPlainNumeral read
      cases tail with
      | nil => cases first
      | cons d tail =>
        have digit : d.isDigit = true := first
        rw [List.takeWhile_cons_of_pos digit] at long
        exact absurd long (by simp)

theorem readToken_found {c : Char} {rest : List Char} {kind : TokenKind} {length : Nat}
    (h : readToken c rest = .ok (kind, length)) : FoundIn (readToken c) rest 1 kind length := by
  unfold readToken at h
  split at h
  · rename_i quote
    obtain ⟨⟨pieces, n⟩, read, same⟩ := bind_ok h
    cases same
    obtain ⟨cs, tail, rfl, rfl, found⟩ := readStringBody_found read
    refine ⟨cs ++ [c], tail, by simp, by simp; omega, fun tail' _ => ?_⟩
    rw [List.append_assoc, List.singleton_append, readToken, if_pos quote, found]
    rfl
  · rename_i noQuote
    split at h
    · rename_i numeral
      obtain ⟨⟨x, n⟩, read, same⟩ := bind_ok h
      cases same
      obtain ⟨cs, tail, rfl, rfl, found⟩ := readSeparateNumeral_found read
      refine ⟨cs, tail, rfl, rfl, fun tail' htail => ?_⟩
      have numeral' := startsNumeral_of_read numeral (readNumeral_of_separate read) tail'
      rw [readToken, if_neg noQuote, if_pos numeral', found tail' htail]
      rfl
    · rename_i noNumeral
      split at h
      · rename_i start
        obtain ⟨cs, tail, rfl, hcs, ht⟩ := exists_run isNamePart rest
        rw [takeWhile_run hcs ht] at h
        cases h
        refine ⟨cs, tail, rfl, rfl, fun tail' htail => ?_⟩
        exact readToken_name start hcs (htail.head (fun _ => not_isNamePart_of_isLayout) ht)
      · split at h
        · rename_i symbol hsymbol
          cases h
          obtain ⟨tail, shape, stop⟩ := readSymbol?_eq_some hsymbol
          obtain ⟨d, cs, text, length, -, -, -, -, dot⟩ := symbol_start symbol
          rw [text] at shape
          cases shape
          refine ⟨cs, tail, rfl, length, fun tail' htail => ?_⟩
          have stop' : ∀ d ∈ tail'.head?, symbol.longer? ≠ some d := by
            intro d hd
            obtain hlayout | hsame := htail d hd
            · exact longer?_ne_of_isLayout symbol hlayout
            · exact stop d hsame
          rw [length]
          refine readToken_symbol text (readSymbol?_text stop') ?_
          rintro rfl
          have noNumeral' := not_startsNumeral_of_standsFor (Bool.eq_false_iff.2 noNumeral) (htail.append cs)
          have single : ['.'] = c :: cs := text
          cases single
          exact noNumeral'
        · cases h

end TemplateExpr
