import TemplateExpr.Json.Basic

/-!
# Writing JSON

Documents are written without blanks.  In a string the quote, the backslash and the controls are
escaped; everything else stands for itself.
-/

namespace TemplateExpr

namespace Json

/-- The lower-case hexadecimal digits of a code point below 256, two of them. -/
def hexPair (n : Nat) : List Char := [Nat.digitChar (n / 16), Nat.digitChar (n % 16)]

/-- A character inside a string. -/
def escapeChar (c : Char) : List Char :=
  match c with
  | '"' => ['\\', '"']
  | '\\' => ['\\', '\\']
  | '\x08' => ['\\', 'b']
  | '\x0c' => ['\\', 'f']
  | '\n' => ['\\', 'n']
  | '\r' => ['\\', 'r']
  | '\t' => ['\\', 't']
  | _ => if c.toNat < 0x20 then '\\' :: 'u' :: '0' :: '0' :: hexPair c.toNat else [c]

def quote (s : String) : List Char := '"' :: (s.toList.flatMap escapeChar ++ ['"'])

/-- A whole number in decimal. -/
def integerText (n : Int) : List Char :=
  (if n < 0 then ['-'] else []) ++ Nat.toDigits 10 n.natAbs

mutual

/-- A document followed by the text `tail`. -/
def writeOnto : Json → List Char → List Char
  | null, tail => "null".toList ++ tail
  | bool true, tail => "true".toList ++ tail
  | bool false, tail => "false".toList ++ tail
  | integer n, tail => integerText n ++ tail
  | float x, tail => (x.jsonText?.getD "null".toList) ++ tail
  | string s, tail => quote s ++ tail
  | array [], tail => '[' :: ']' :: tail
  | array (item :: items), tail => '[' :: writeOnto item (writeItems items (']' :: tail))
  | object [], tail => '{' :: '}' :: tail
  | object ((key, value) :: members), tail =>
    '{' :: (quote key ++ ':' :: writeOnto value (writeMembers members ('}' :: tail)))

/-- Items after the first one, each behind a comma. -/
def writeItems : List Json → List Char → List Char
  | [], tail => tail
  | item :: items, tail => ',' :: writeOnto item (writeItems items tail)

/-- Members after the first one, each behind a comma. -/
def writeMembers : List (String × Json) → List Char → List Char
  | [], tail => tail
  | (key, value) :: members, tail =>
    ',' :: (quote key ++ ':' :: writeOnto value (writeMembers members tail))

end

def write (j : Json) : String := String.ofList (writeOnto j [])

end Json

end TemplateExpr
