/-!
# Percent-encoding

Two encodings of a text for use in a URI.  `encodeComponent` keeps letters, digits and the marks
`- _ . ! ~ * ' ( )` and writes every other character as the bytes of its UTF-8 form, each a percent
sign and two hexadecimal digits.  `escape` then writes the marks that matter inside an HTML attribute
as such triples too.
-/

namespace TemplateExpr

namespace Percent

/-- The upper-case hexadecimal digit of a number below sixteen. -/
def hexDigit (n : Nat) : Char := Char.ofNat (if n < 10 then '0'.toNat + n else 'A'.toNat + (n - 10))

/-- A percent sign and two hexadecimal digits. -/
def triple (byte : UInt8) : List Char := ['%', hexDigit (byte.toNat / 16), hexDigit (byte.toNat % 16)]

/-- The marks that stay in a URI component. -/
def isMark (c : Char) : Bool :=
  c == '-' || c == '_' || c == '.' || c == '!' || c == '~' || c == '*' || c == '\'' || c == '('
    || c == ')'

def encodeChar (c : Char) : List Char :=
  if c.isAlphanum || isMark c then [c] else (String.utf8EncodeChar c).flatMap triple

def encodeComponent (cs : List Char) : List Char := cs.flatMap encodeChar

/-- Marks of the component encoding that an attribute may not hold; both quotes share one triple. -/
def escapeMark (c : Char) : List Char :=
  match c with
  | '!' => "%21".toList
  | '"' => "%27".toList
  | '\'' => "%27".toList
  | '(' => "%28".toList
  | ')' => "%29".toList
  | '*' => "%2A".toList
  | '~' => "%7E".toList
  | _ => [c]

/-- The component encoding with the remaining marks escaped. -/
def escape (cs : List Char) : List Char := (encodeComponent cs).flatMap escapeMark

theorem encodeComponent_append (s t : List Char) :
    encodeComponent (s ++ t) = encodeComponent s ++ encodeComponent t :=
  List.flatMap_append

theorem escape_append (s t : List Char) : escape (s ++ t) = escape s ++ escape t := by
  simp only [escape, encodeComponent_append, List.flatMap_append]

end Percent

/-- A string percent-encoded as a URI component. -/
def encodeUriComponent (s : String) : String := String.ofList (Percent.encodeComponent s.toList)

/-- A string percent-encoded for a URI inside an HTML attribute. -/
def escapeUri (s : String) : String := String.ofList (Percent.escape s.toList)

end TemplateExpr
