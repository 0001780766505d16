import Mathlib.Data.List.Forall2
import Mathlib.Data.Nat.Digits.Defs
import TemplateExpr.Proofs.TokenText
import TemplateExpr.Text.Quoted

/-!
# Quoted texts as string literals

A text as messages quote it is a string literal of that text.  The escapes agree but for one: NUL is
written as a backslash and a zero, which takes octal digits behind it along.
-/

namespace TemplateExpr

/-! ### Hexadecimal numbers -/

theorem hexNumber?_toDigits (n : Nat) : hexNumber? (Nat.toDigits 16 n) = some n :=
  foldlM_toDigits (by decide) (by decide) n

theorem isSome_digitValue?_of_hexNumber? {cs : List Char} {n : Nat} (h : hexNumber? cs = some n) :
    ∀ c ∈ cs, (digitValue? 16 c).isSome := by
  have general : ∀ (cs : List Char) (m n : Nat),
      cs.foldlM (fun n c => (digitValue? 16 c).map (16 * n + ·)) m = some n →
        ∀ c ∈ cs, (digitValue? 16 c).isSome := by
    intro cs
    induction cs with
    | nil => exact fun _ _ _ c hc => absurd hc List.not_mem_nil
    | cons d cs ih =>
      intro m n h c hc
      rw [List.foldlM_cons] at h
      obtain ⟨m', first, rest⟩ := Option.bind_eq_some_iff.1 h
      obtain ⟨value, digit, -⟩ := Option.map_eq_some_iff.1 first
      obtain rfl | hc := List.mem_cons.1 hc
      · exact Option.isSome_iff_exists.2 ⟨value, digit⟩
      · exact ih m' n rest c hc
  exact general cs 0 n h

theorem no_brace_of_hexNumber? {cs : List Char} {n : Nat} (h : hexNumber? cs = some n) : '\x7d' ∉ cs :=
  fun inside => absurd (isSome_digitValue?_of_hexNumber? h _ inside) (by decide)

/-! ### One character -/

/-- A piece that is a character of its own. -/
def StringPiece.IsPlain (piece : StringPiece) (c : Char) : Prop := piece.high? = none ∧ piece.text = [c]

theorem isPlain_char (c : Char) : (StringPiece.char c).IsPlain c := ⟨rfl, rfl⟩

theorem isPlain_point (c : Char) : (StringPiece.point c.toNat).IsPlain c := by
  constructor
  · have valid : c.toNat.isValidChar := c.valid
    unfold Nat.isValidChar at valid
    have no_high : Utf16.isHigh c.toNat = false := by
      simp only [Utf16.isHigh, Bool.and_eq_false_iff, decide_eq_false_iff_not]
      omega
    simp only [StringPiece.high?, no_high, Bool.false_eq_true, if_false]
  · rw [StringPiece.text, Utf16.charOf_toNat]

section

variable {quote : Char}

theorem readStringBody_escape (hquote : '\\' ≠ quote) (cs : List Char) {rest : List Char}
    {piece : StringPiece} (read : readEscape (cs ++ rest) = .ok (piece, cs.length)) (count : Nat)
    (done : List StringPiece) :
    readStringBody quote count done ('\\' :: (cs ++ rest)) =
      readStringBody quote (count + (cs.length + 1)) (piece :: done) rest := by
  rw [readStringBody, if_neg hquote, if_pos rfl, read]
  dsimp only
  rw [List.drop_left, Nat.add_assoc, Nat.add_comm 1]

theorem readStringBody_plain {c : Char} (hquote : c ≠ quote) (backslash : c ≠ '\\') (feed : c ≠ '\n')
    (return_ : c ≠ '\r') (count : Nat) (done : List StringPiece) (rest : List Char) :
    readStringBody quote count done (c :: rest) = readStringBody quote (count + 1) (.char c :: done) rest := by
  rw [readStringBody, if_neg hquote, if_neg backslash, if_neg (by simp [feed, return_])]

end

theorem readEscape_nul {rest : List Char} (h : ∀ d ∈ rest.head?, isDigitIn 8 d = false) :
    readEscape ('0' :: rest) = .ok (.char '\x00', 1) := by
  have digits : octalDigits '0' rest = ['0'] := by
    cases rest with
    | nil => rfl
    | cons d rest =>
      show '0' :: (d :: rest.take 1).takeWhile (isDigitIn 8) = ['0']
      rw [List.takeWhile_cons_of_neg (by simp [h d rfl])]
  have read : readEscape ('0' :: rest) = .ok (.char (Utf16.charOf (Nat.ofDigitChars 8 (octalDigits '0' rest) 0)),
      (octalDigits '0' rest).length) := rfl
  rw [read, digits]
  rfl

theorem readUnicodeEscape_braces {digits : List Char} (h : '\x7d' ∉ digits) (tail : List Char) :
    readUnicodeEscape ('\x7b' :: (digits ++ '\x7d' :: tail)) =
      (saturatedHex? digits).elim (.error .badUnicodeEscape) fun n =>
        if digitCount digits == 0 || 0x10ffff < n then .error .badUnicodeEscape
        else .ok (.point n, digits.length + 2) := by
  have run : (digits ++ '\x7d' :: tail).takeWhile (· != '\x7d') = digits := by
    refine takeWhile_run (fun c hc => bne_iff_ne.2 fun same => h (same ▸ hc)) fun c hc => ?_
    cases hc
    rfl
  have closed : (digits.length == (digits ++ '\x7d' :: tail).length) = false := by
    rw [beq_eq_false_iff_ne, List.length_append, List.length_cons]
    omega
  simp only [readUnicodeEscape, run, closed, Bool.or_false]
  cases saturatedHex? digits <;> rfl

theorem readUnicodeEscape_plain {text : List Char} (h : text.head? ≠ some '\x7b') :
    readUnicodeEscape text = (readHex? 4 text).elim (.error .badHexEscape) fun n => .ok (.unit n, 4) := by
  unfold readUnicodeEscape
  split
  · exact absurd rfl h
  · cases readHex? 4 text <;> rfl

/-- An escape in braces is good if its number is that of a character and its digits do not count as none. -/
theorem readEscape_braces {digits : List Char} {n : Nat} (number : hexNumber? digits = some n)
    (rest : List Char) :
    readEscape ('u' :: '\x7b' :: (digits ++ '\x7d' :: rest)) =
      if digitCount digits = 0 ∨ 0x10ffff < n then .error .badUnicodeEscape
      else .ok (.point n, digits.length + 2 + 1) := by
  have greatest : greatestCode = 0xffffffff := rfl
  show (readUnicodeEscape ('\x7b' :: (digits ++ '\x7d' :: rest))).map _ = _
  rw [readUnicodeEscape_braces (no_brace_of_hexNumber? number), saturatedHex?_eq, number]
  simp only [Option.map_some, Option.elim_some, Bool.or_eq_true, beq_iff_eq, decide_eq_true_eq]
  by_cases large : 0x10ffff < n
  · have large' : 0x10ffff < min greatestCode n := by omega
    rw [if_pos (.inr large'), if_pos (.inr large)]
    rfl
  · have code : min greatestCode n = n := by omega
    rw [code]
    split <;> rfl

theorem not_beyond (c : Char) : ¬0x10ffff < c.toNat := by
  have valid : c.toNat.isValidChar := c.valid
  unfold Nat.isValidChar at valid
  omega

theorem readEscape_toDigits (c : Char) (rest : List Char) :
    readEscape ('u' :: '\x7b' :: (Nat.toDigits 16 c.toNat ++ '\x7d' :: rest)) =
      .ok (.point c.toNat, (Nat.toDigits 16 c.toNat).length + 2 + 1) := by
  have no_beyond := not_beyond c
  have few : (Nat.toDigits 16 c.toNat).length ≤ 6 := Nat.toDigits_length 16 c.toNat 6 (by omega) (by omega)
  have counted := digitCount_ne_zero (@Nat.toDigits_ne_nil c.toNat 16) (by omega)
  rw [readEscape_braces (hexNumber?_toDigits _), if_neg]
  simp [counted, no_beyond]

/-- What stands for a character in a quoted text is a piece of a string literal. -/
theorem readStringBody_escapeChar {c : Char} {rest : List Char}
    (nul : c = '\x00' → ∀ d ∈ rest.head?, isDigitIn 8 d = false) :
    ∃ piece : StringPiece, piece.IsPlain c ∧ ∀ count done,
      readStringBody '"' count done (Quoted.escapeChar c ++ rest) =
        readStringBody '"' (count + (Quoted.escapeChar c).length) (piece :: done) rest := by
  unfold Quoted.escapeChar
  split
  · exact ⟨.char '\x00', isPlain_char _, readStringBody_escape (by decide) ['0'] (readEscape_nul (nul rfl))⟩
  · exact ⟨.char '\t', isPlain_char _, readStringBody_escape (by decide) ['t'] rfl⟩
  · exact ⟨.char '\r', isPlain_char _, readStringBody_escape (by decide) ['r'] rfl⟩
  · exact ⟨.char '\n', isPlain_char _, readStringBody_escape (by decide) ['n'] rfl⟩
  · exact ⟨.char '"', isPlain_char _, readStringBody_escape (by decide) ['"'] rfl⟩
  · exact ⟨.char '\\', isPlain_char _, readStringBody_escape (by decide) ['\\'] rfl⟩
  · rename_i return_ feed quote backslash
    split
    · exact ⟨.point c.toNat, isPlain_point c,
        readStringBody_escape (by decide) ('u' :: '\x7b' :: (Nat.toDigits 16 c.toNat ++ ['\x7d']))
          (by simpa using readEscape_toDigits c rest)⟩
    · exact ⟨.char c, isPlain_char c, fun count done =>
        readStringBody_plain quote backslash feed return_ count done rest⟩

/-! ### Whole texts -/

/-- NUL stands right in front of no octal digit. -/
def NulApart (cs : List Char) : Prop :=
  ∀ before d after, cs = before ++ '\x00' :: d :: after → ¬('0' ≤ d ∧ d ≤ '7')

theorem NulApart.tail {c : Char} {cs : List Char} (h : NulApart (c :: cs)) : NulApart cs :=
  fun before d after shape => h (c :: before) d after (congrArg (c :: ·) shape)

theorem octal_of_isDigitIn {d : Char} (h : isDigitIn 8 d) : '0' ≤ d ∧ d ≤ '7' := by
  simp only [isDigitIn, digitValue?, Option.isSome_ite, Char.le_def, UInt32.le_iff_toNat_le] at h ⊢
  change (if 48 ≤ d.toNat ∧ d.toNat ≤ 57 then d.toNat - 48
    else if 97 ≤ d.toNat ∧ d.toNat ≤ 102 then d.toNat - 97 + 10
    else if 65 ≤ d.toNat ∧ d.toNat ≤ 70 then d.toNat - 65 + 10 else 8) < 8 at h
  change 48 ≤ d.toNat ∧ d.toNat ≤ 55
  split at h
  · omega
  · split at h
    · omega
    · split at h <;> omega

/-- No octal digit stands behind the NUL that begins a text. -/
theorem NulApart.head {cs : List Char} (h : NulApart ('\x00' :: cs)) (tail : List Char) :
    ∀ d ∈ (cs.flatMap Quoted.escapeChar ++ '"' :: tail).head?, isDigitIn 8 d = false := by
  intro d hd
  cases cs with
  | nil =>
    cases hd
    rfl
  | cons c cs =>
    -- An escape begins with a backslash; what has none stands for itself.
    have first : d = '\\' ∨ d = c := by
      rw [List.flatMap_cons, List.append_assoc] at hd
      unfold Quoted.escapeChar at hd
      split at hd
      case h_7 =>
        split at hd
        · exact .inl (Option.some.inj hd).symm
        · exact .inr (Option.some.inj hd).symm
      all_goals exact .inl (Option.some.inj hd).symm
    refine Bool.eq_false_iff.2 fun octal => ?_
    obtain rfl | rfl := first
    · exact absurd octal (by decide)
    · exact h [] d cs rfl (octal_of_isDigitIn octal)

theorem join_plain {pieces : List StringPiece} {cs : List Char}
    (h : List.Forall₂ StringPiece.IsPlain pieces cs) : StringPiece.join pieces = cs := by
  induction h with
  | nil => rfl
  | @cons piece c pieces cs plain others ih =>
    cases others with
    | nil => exact plain.2
    | @cons second d pieces cs plain' others =>
      rw [StringPiece.join, plain.1]
      dsimp only
      rw [ih, plain.2]
      rfl

theorem readStringBody_flatMap {cs : List Char} (h : NulApart cs) (tail : List Char) :
    ∃ pieces, List.Forall₂ StringPiece.IsPlain pieces cs ∧ ∀ count done,
      readStringBody '"' count done (cs.flatMap Quoted.escapeChar ++ '"' :: tail) =
        .ok (done.reverse ++ pieces, count + (cs.flatMap Quoted.escapeChar).length + 1) := by
  induction cs with
  | nil =>
    refine ⟨[], .nil, fun count done => ?_⟩
    rw [List.flatMap_nil, List.nil_append, readStringBody, if_pos rfl, List.append_nil]
    rfl
  | cons c cs ih =>
    have nul : c = '\x00' → ∀ d ∈ (cs.flatMap Quoted.escapeChar ++ '"' :: tail).head?,
        isDigitIn 8 d = false := by
      rintro rfl
      exact h.head tail
    obtain ⟨piece, plain, first⟩ := readStringBody_escapeChar nul
    obtain ⟨pieces, others, rest⟩ := ih h.tail
    refine ⟨piece :: pieces, .cons plain others, fun count done => ?_⟩
    rw [List.flatMap_cons, List.append_assoc, first, rest, List.reverse_cons, List.append_assoc,
      List.length_append, Nat.add_assoc count]
    rfl

theorem scans_quote {s : String} (h : NulApart s.toList) (tail : List Char) :
    Scans (Quoted.quote s.toList ++ tail) tail (IsToken (.string s)) := by
  obtain ⟨pieces, plain, read⟩ := readStringBody_flatMap h tail
  apply Scans.token (by decide)
  rw [List.append_assoc, readToken, if_pos (.inr rfl), List.singleton_append, read, List.reverse_nil, List.nil_append]
  show Except.ok (TokenKind.string (String.ofList (StringPiece.join pieces)), _) = _
  rw [join_plain plain, String.ofList_toList, List.length_append, List.length_singleton, Nat.add_comm 1]

end TemplateExpr
