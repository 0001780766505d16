import TemplateExpr.Double.Layout

/-!
# Tokens

The words of an expression: names, numbers, strings and symbols, each with the place where it begins.
Places are counted in bytes of the UTF-8 form of the source.
-/

namespace TemplateExpr

inductive Symbol where
  | dot
  | leftBracket
  | rightBracket
  | leftParen
  | rightParen
  | comma
  | question
  | colon
  | semicolon
  | plus
  | minus
  | star
  | slash
  | percent
  | bang
  | eq
  | notEq
  | strictEq
  | strictNotEq
  | lt
  | ltEq
  | gt
  | gtEq
  | and
  | or
  | nullish
  deriving DecidableEq

def Symbol.text : Symbol → String
  | dot => "."
  | leftBracket => "["
  | rightBracket => "]"
  | leftParen => "("
  | rightParen => ")"
  | comma => ","
  | question => "?"
  | colon => ":"
  | semicolon => ";"
  | plus => "+"
  | minus => "-"
  | star => "*"
  | slash => "/"
  | percent => "%"
  | bang => "!"
  | eq => "=="
  | notEq => "!="
  | strictEq => "==="
  | strictNotEq => "!=="
  | lt => "<"
  | ltEq => "<="
  | gt => ">"
  | gtEq => ">="
  | and => "&&"
  | or => "||"
  | nullish => "??"

inductive TokenKind where
  | name (text : String)
  | number (value : Double)
  | string (value : String)
  | symbol (symbol : Symbol)
  deriving DecidableEq

def TokenKind.describe : TokenKind → String
  | name text => "identifier '" ++ text ++ "'"
  | number value => "number " ++ value.positionalText
  | string _ => "string"
  | symbol s => "'" ++ s.text ++ "'"

structure Token where
  kind : TokenKind
  position : Nat
  deriving DecidableEq

/-- The size of a text in bytes. -/
def utf8Length : List Char → Nat
  | [] => 0
  | c :: rest => c.utf8Size + utf8Length rest

theorem utf8Length_append (s t : List Char) : utf8Length (s ++ t) = utf8Length s + utf8Length t := by
  induction s with
  | nil => exact (Nat.zero_add _).symm
  | cons c rest ih => rw [List.cons_append, utf8Length, utf8Length, ih, Nat.add_assoc]

theorem utf8Length_toList (s : String) : utf8Length s.toList = s.utf8ByteSize := by
  have general : ∀ cs : List Char, utf8Length cs = (String.ofList cs).utf8ByteSize := by
    intro cs
    induction cs with
    | nil => rfl
    | cons c rest ih =>
      have hs : String.ofList (c :: rest) = String.singleton c ++ String.ofList rest := by
        rw [← String.toList_inj, String.toList_append, String.toList_ofList, String.toList_ofList,
          String.toList_singleton]
        rfl
      rw [hs, String.utf8ByteSize_append, String.utf8ByteSize_singleton, ← ih]
      rfl
  rw [general, String.ofList_toList]

/-! ### Syntax errors -/

/-- Why a source is not an expression. -/
inductive SyntaxCause where
  /-- A character that begins no token. -/
  | strayCharacter (c : Char)
  /-- A numeral without the digits it needs. -/
  | badNumeral
  /-- A name or digit right behind a numeral. -/
  | nameAfterNumeral
  | unterminatedString
  | badHexEscape
  | badUnicodeEscape
  /-- A token, or the end (`none`), where it cannot stand. -/
  | unexpected (found : Option TokenKind)
  /-- Something else than the one symbol that may stand there. -/
  | expected (symbol : Symbol) (found : Option TokenKind)
  | tooDeep
  deriving DecidableEq

def describeFound : Option TokenKind → String
  | some kind => kind.describe
  | none => "end of input"

def SyntaxCause.message : SyntaxCause → String
  | strayCharacter c => "invalid or unexpected token '" ++ String.singleton c ++ "'"
  | badNumeral => "invalid or unexpected token"
  | nameAfterNumeral => "identifier starts immediately after numeric literal"
  | unterminatedString => "unterminated string literal"
  | badHexEscape => "invalid hexadecimal escape sequence"
  | badUnicodeEscape => "invalid Unicode escape sequence"
  | unexpected found => "unexpected " ++ describeFound found
  | expected symbol found => "expected '" ++ symbol.text ++ "', found " ++ describeFound found
  | tooDeep => "expression nested too deeply"

structure SyntaxError where
  cause : SyntaxCause
  position : Nat
  deriving DecidableEq

end TemplateExpr
