import TemplateExpr.Proofs.Outcome
import TemplateExpr.Token.Scan

/-!
# Why a source has no tokens

The scanner knows six causes of failure, all of them about characters.  The others are about tokens and
arise only behind it.
-/

namespace TemplateExpr

/-- The causes that lie in the characters of a source. -/
def SyntaxCause.IsLexical : SyntaxCause → Prop
  | strayCharacter _ => True
  | badNumeral => True
  | nameAfterNumeral => True
  | unterminatedString => True
  | badHexEscape => True
  | badUnicodeEscape => True
  | unexpected _ => False
  | expected _ _ => False
  | tooDeep => False

/-! ### String literals -/

theorem readUnicodeEscape_errors (cs : List Char) :
    ErrorsIn SyntaxCause.IsLexical (readUnicodeEscape cs) := by
  unfold readUnicodeEscape
  split
  · dsimp only
    split
    · split
      · exact .error trivial
      · exact .ok _
    · exact .error trivial
  · split
    · exact .ok _
    · exact .error trivial

theorem readEscape_errors (cs : List Char) : ErrorsIn SyntaxCause.IsLexical (readEscape cs) := by
  unfold readEscape
  split
  · exact .error trivial
  · split
    · exact .ok _
    · exact .ok _
    · exact .ok _
    · exact .ok _
    · exact .ok _
    · exact .ok _
    · split
      · exact .ok _
      · exact .error trivial
    · exact (readUnicodeEscape_errors _).map _
    · exact .ok _
    · split
      · exact .ok _
      · split
        · exact .ok _
        · exact .ok _

theorem readStringBody_errors (quote : Char) (read : Nat) (done : List StringPiece) (cs : List Char) :
    ErrorsIn (fun fault => fault.1.IsLexical) (readStringBody quote read done cs) := by
  fun_induction readStringBody quote read done cs with
  | case1 => exact .error trivial
  | case2 => exact .ok _
  | case3 read done rest cause hescape _ => exact .error (readEscape_errors rest cause hescape)
  | case4 read done rest piece length _ _ ih => exact ih
  | case5 => exact .error trivial
  | case6 read done c rest _ _ _ ih => exact ih

/-! ### Numerals -/

theorem readDecimalNumeral_errors (lead rest : List Char) :
    ErrorsIn (fun fault => fault.1.IsLexical) (readDecimalNumeral lead rest) := by
  unfold readDecimalNumeral
  dsimp only
  split
  · exact .error trivial
  · split
    · exact .ok _
    · exact .error trivial

theorem readNumeral_errors (c : Char) (rest : List Char) :
    ErrorsIn (fun fault => fault.1.IsLexical) (readNumeral c rest) := by
  have decimal : ErrorsIn (fun fault => fault.1.IsLexical)
      (if isLegacyOctal (c :: rest.takeWhile Char.isDigit) then
        .ok (Double.readRadix 8 (rest.takeWhile Char.isDigit), (rest.takeWhile Char.isDigit).length + 1)
      else readDecimalNumeral (c :: rest.takeWhile Char.isDigit) (rest.dropWhile Char.isDigit)) := by
    split
    · exact .ok _
    · exact readDecimalNumeral_errors _ _
  unfold readNumeral
  split
  · split
    · unfold readRadixNumeral
      dsimp only
      split
      · exact .error trivial
      · exact .ok _
    · exact decimal
  · exact decimal

theorem readSeparateNumeral_errors (c : Char) (rest : List Char) :
    ErrorsIn (fun fault => fault.1.IsLexical) (readSeparateNumeral c rest) := by
  refine (readNumeral_errors c rest).bind fun ⟨value, length⟩ => ?_
  dsimp only
  split
  · split
    · exact .error trivial
    · exact .ok _
  · exact .ok _

/-! ### Tokens -/

theorem readToken_errors (c : Char) (rest : List Char) :
    ErrorsIn (fun fault => fault.1.IsLexical) (readToken c rest) := by
  unfold readToken
  split
  · exact (readStringBody_errors _ _ _ _).bind fun ⟨pieces, length⟩ => .ok _
  · split
    · exact (readSeparateNumeral_errors c rest).bind fun ⟨value, length⟩ => .ok _
    · split
      · exact .ok _
      · split
        · exact .ok _
        · exact .error trivial

theorem scan_errors (position : Nat) (done : List Token) (cs : List Char) :
    ErrorsIn (fun error => error.cause.IsLexical) (scan position done cs) := by
  fun_induction scan position done cs with
  | case1 => exact .ok _
  | case2 position done c rest _ ih => exact ih
  | case3 position done c rest _ cause offset hread => exact .error (readToken_errors c rest _ hread)
  | case4 position done c rest _ kind length _ ih => exact ih

theorem tokenize_errors (source : String) :
    ErrorsIn (fun error => error.cause.IsLexical) (tokenize source) :=
  scan_errors 0 [] source.toList

end TemplateExpr
