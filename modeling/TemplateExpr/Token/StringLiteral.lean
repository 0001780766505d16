import TemplateExpr.Token.Basic
import TemplateExpr.Double.Numeral
import TemplateExpr.Text.Blank
import TemplateExpr.Text.Utf16

/-!
# String literals

The body of a quoted string is a sequence of pieces: characters as they are, UTF-16 units from
four-digit escapes, code points from escapes in braces, and line continuations, which stand for nothing.
Joining the pieces pairs the surrogates of adjacent escapes.
-/

namespace TemplateExpr

/-- What one character or escape of a string literal stands for. -/
inductive StringPiece where
  | char (c : Char)
  /-- A four-digit escape. -/
  | unit (n : Nat)
  /-- An escape in braces. -/
  | point (n : Nat)
  /-- A line end behind a backslash. -/
  | continuation

namespace StringPiece

/-- The code of an escape that a low surrogate may follow. -/
def high? : StringPiece → Option Nat
  | unit n => if Utf16.isHigh n then some n else none
  | point n => if Utf16.isHigh n then some n else none
  | _ => none

/-- The code of an escape that may follow a high surrogate. -/
def low? : StringPiece → Option Nat
  | unit n => if Utf16.isLow n then some n else none
  | _ => none

def text : StringPiece → List Char
  | char c => [c]
  | unit n => [Utf16.charOf n]
  | point n => [Utf16.charOf n]
  | continuation => []

/-- The text of a sequence of pieces: surrogates are paired, and one without a partner is read as
U+FFFD. -/
def join : List StringPiece → List Char
  | [] => []
  | [piece] => piece.text
  | first :: second :: rest =>
    match first.high?, second.low? with
    | some high, some low => Utf16.charOf (Utf16.join high low) :: join rest
    | _, _ => first.text ++ join (second :: rest)

end StringPiece

/-- The number that hexadecimal digits denote; `none` at a character that is no such digit. -/
def hexNumber? (cs : List Char) : Option Nat :=
  cs.foldlM (fun n c => (digitValue? 16 c).map (16 * n + ·)) 0

/-- The greatest number of 32 bits. -/
def greatestCode : Nat := 0xffffffff

/-- The number that hexadecimal digits denote, held in 32 bits: what would be greater stays at the greatest of
them. -/
def saturatedHex? (cs : List Char) : Option Nat :=
  cs.foldlM (fun n c => (digitValue? 16 c).map fun d => min greatestCode (min greatestCode (16 * n) + d)) 0

theorem saturatedHex?_eq (cs : List Char) : saturatedHex? cs = (hexNumber? cs).map (min greatestCode) := by
  -- A number that has reached the bound stays there, whatever digits follow.
  have general : ∀ (cs : List Char) (n : Nat),
      cs.foldlM (fun n c => (digitValue? 16 c).map fun d => min greatestCode (min greatestCode (16 * n) + d))
          (min greatestCode n) =
        (cs.foldlM (fun n c => (digitValue? 16 c).map (16 * n + ·)) n).map (min greatestCode) := by
    intro cs
    induction cs with
    | nil => exact fun n => rfl
    | cons c cs ih =>
      intro n
      rw [List.foldlM_cons, List.foldlM_cons]
      cases digitValue? 16 c with
      | none => rfl
      | some d =>
        have step : min greatestCode (min greatestCode (16 * min greatestCode n) + d) =
            min greatestCode (16 * n + d) := by
          simp only [greatestCode]
          omega
        show cs.foldlM _ (min greatestCode (min greatestCode (16 * min greatestCode n) + d)) = _
        rw [step]
        exact ih (16 * n + d)
  exact general cs 0

/-- The number of digits of an escape, counted in 32 bits with a sign: beyond their range the count goes
round. -/
def digitCount (cs : List Char) : Int32 := cs.foldl (fun count _ => count + 1) 0

theorem digitCount_eq (cs : List Char) : digitCount cs = Int32.ofNat cs.length := by
  have general : ∀ (cs : List Char) (n : Nat),
      cs.foldl (fun count _ => count + 1) (Int32.ofNat n) = Int32.ofNat (n + cs.length) := by
    intro cs
    induction cs with
    | nil => simp
    | cons c cs ih =>
      intro n
      rw [List.foldl_cons, List.length_cons, ← Nat.add_assoc, Nat.add_right_comm, ← ih, Int32.ofNat_add]
      rfl
  have h := general cs 0
  rw [Nat.zero_add] at h
  exact h

theorem digitCount_eq_zero_iff (cs : List Char) : digitCount cs = 0 ↔ 0x100000000 ∣ cs.length := by
  rw [digitCount_eq, ← Int32.toBitVec_inj, Int32.toBitVec_ofNat', BitVec.toNat_eq]
  simp [Nat.dvd_iff_mod_eq_zero]

theorem digitCount_ne_zero {cs : List Char} (some_digit : cs ≠ []) (few : cs.length < 0x80000000) :
    digitCount cs ≠ 0 := by
  rw [ne_eq, digitCount_eq_zero_iff]
  have positive := List.length_pos_iff.2 some_digit
  omega

/-- A fixed number of hexadecimal digits at the front of a text. -/
def readHex? (count : Nat) (cs : List Char) : Option Nat :=
  let digits := cs.take count
  if digits.length = count then hexNumber? digits else none

/-- An octal escape: up to three digits after `0` to `3`, up to two after `4` to `7`. -/
def octalDigits (first : Char) (rest : List Char) : List Char :=
  first :: (rest.take (if first ≤ '3' then 2 else 1)).takeWhile (isDigitIn 8)

/-- An escape after its `u`: its piece and the number of characters read. -/
def readUnicodeEscape (cs : List Char) : Except SyntaxCause (StringPiece × Nat) :=
  match cs with
  | '{' :: body =>
    let digits := body.takeWhile (· != '}')
    match saturatedHex? digits with
    | some n =>
      if digitCount digits == 0 || digits.length == body.length || 0x10ffff < n then .error .badUnicodeEscape
      else .ok (.point n, digits.length + 2)
    | none => .error .badUnicodeEscape
  | _ =>
    match readHex? 4 cs with
    | some n => .ok (.unit n, 4)
    | none => .error .badHexEscape

/-- An escape after its backslash: its piece and the number of characters read. -/
def readEscape : List Char → Except SyntaxCause (StringPiece × Nat)
  | [] => .error .unterminatedString
  | c :: rest =>
    match c with
    | 'n' => .ok (.char '\n', 1)
    | 't' => .ok (.char '\t', 1)
    | 'r' => .ok (.char '\r', 1)
    | 'b' => .ok (.char '\x08', 1)
    | 'f' => .ok (.char '\x0c', 1)
    | 'v' => .ok (.char '\x0b', 1)
    | 'x' =>
      match readHex? 2 rest with
      | some n => .ok (.char (Utf16.charOf n), 3)
      | none => .error .badHexEscape
    | 'u' => (readUnicodeEscape rest).map fun (piece, length) => (piece, length + 1)
    | '\r' => .ok (.continuation, if rest.head? = some '\n' then 2 else 1)
    | _ =>
      if isDigitIn 8 c then
        let digits := octalDigits c rest
        .ok (.char (Utf16.charOf (Nat.ofDigitChars 8 digits 0)), digits.length)
      else if isLineEnd c then .ok (.continuation, 1)
      else .ok (.char c, 1)

/-- The rest of a string literal: `read` characters of it, its opening quote among them, and the
pieces so far in reverse.  Yields all pieces and the length of the literal; a failure comes with the
number of characters before the place it refers to. -/
def readStringBody (quote : Char) (read : Nat) (done : List StringPiece) :
    List Char → Except (SyntaxCause × Nat) (List StringPiece × Nat)
  | [] => .error (.unterminatedString, 0)
  | c :: rest =>
    if c = quote then .ok (done.reverse, read + 1)
    else if c = '\\' then
      match readEscape rest with
      | .error cause => .error (cause, read)
      | .ok (piece, length) =>
        readStringBody quote (read + 1 + length) (piece :: done) (rest.drop length)
    else if c = '\n' ∨ c = '\r' then .error (.unterminatedString, 0)
    else readStringBody quote (read + 1) (.char c :: done) rest
termination_by cs => cs.length
decreasing_by
  · simp only [List.length_drop, List.length_cons]; omega
  · simp only [List.length_cons]; omega

end TemplateExpr
