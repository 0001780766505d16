/-!
# HTML escaping

Escaping by allow-list, for element text and attribute values, in two passes.  The first one makes a space of
each control character.  In the second one a character of the allow-list stays, and every other one becomes an
entity: a named one for the four characters of markup, a decimal one below 100, a hexadecimal one above.
-/

namespace TemplateExpr

namespace Html

/-- Characters replaced by a space: the C0 controls other than tab, line feed and carriage return,
and the controls from U+007F to U+009F. -/
def isControl (c : Char) : Bool :=
  let n := c.toNat
  n ≤ 0x08 || n == 0x0b || n == 0x0c || (0x0e ≤ n && n ≤ 0x1f) || (0x7f ≤ n && n ≤ 0x9f)

/-- The allow-list.  Vertical tab and form feed are on it, though the first pass leaves none of them. -/
def isListed (c : Char) : Bool :=
  let n := c.toNat
  n == 0x09 || n == 0x0a || n == 0x0b || n == 0x0c || n == 0x0d || c == ' ' || c == ',' || c == '.' || c == '_'
    || c == '-' || c.isAlphanum || 0xa0 ≤ n

/-- Code points below this bound are written in decimal. -/
def decimalLimit : Nat := 100

def entity (c : Char) : List Char :=
  match c with
  | '"' => "&quot;".toList
  | '&' => "&amp;".toList
  | '<' => "&lt;".toList
  | '>' => "&gt;".toList
  | _ =>
    if c.toNat < decimalLimit then "&#".toList ++ Nat.toDigits 10 c.toNat ++ [';']
    else "&#x".toList ++ (Nat.toDigits 16 c.toNat).map Char.toUpper ++ [';']

/-- The first pass. -/
def spaceControls (cs : List Char) : List Char := cs.map fun c => if isControl c then ' ' else c

/-- The second pass. -/
def escapeUnlisted (cs : List Char) : List Char := cs.flatMap fun c => if isListed c then [c] else entity c

def escape (cs : List Char) : List Char := escapeUnlisted (spaceControls cs)

/-- What both passes make of a character. -/
def escapeChar (c : Char) : List Char :=
  if isControl c then [' '] else if isListed c then [c] else entity c

/-- The second pass goes over what the first one wrote, and a space passes it unchanged. -/
theorem escape_eq_flatMap (cs : List Char) : escape cs = cs.flatMap escapeChar := by
  rw [escape, escapeUnlisted, spaceControls, List.flatMap_map]
  congr 1
  funext c
  unfold escapeChar
  split <;> rfl

theorem escape_append (s t : List Char) : escape (s ++ t) = escape s ++ escape t := by
  simp only [escape_eq_flatMap, List.flatMap_append]

end Html

def escapeHtml (s : String) : String := String.ofList (Html.escape s.toList)

end TemplateExpr
