import TemplateExpr.Double.Numeral
import TemplateExpr.Json.Basic
import TemplateExpr.Yaml.Basic

/-!
# The core schema

What a plain scalar stands for: the words for null, the truth values, whole numbers with a radix letter or
without leading zeros, decimal numerals and the names of infinity and NaN; any other plain scalar, and
every quoted one, is its text.  A tag of the schema demands one of these readings, however the scalar is
written, and any other tag that is not local to the document makes it a text.
-/

namespace TemplateExpr

namespace Yaml

/-! ### The words and numerals -/

def isNullWord (text : String) : Bool := text ∈ ["", "~", "null", "Null", "NULL"]

def truth? (text : String) : Option Bool :=
  if text ∈ ["true", "True", "TRUE"] then some true
  else if text ∈ ["false", "False", "FALSE"] then some false
  else none

/-- The number that digits of a radix denote; there is at least one, and nothing else. -/
def digitsIn? (radix : Nat) (cs : List Char) : Option Nat :=
  if cs.isEmpty then none
  else cs.foldlM (fun n c => (digitValue? radix c).map (radix * n + ·)) 0

/-- A whole number without its sign: with a radix letter, or in decimal without leading zeros. -/
def unsigned? : List Char → Option Nat
  | '0' :: 'x' :: digits => digitsIn? 16 digits
  | '0' :: 'o' :: digits => digitsIn? 8 digits
  | '0' :: 'b' :: digits => digitsIn? 2 digits
  | '0' :: _ :: _ => none
  | digits => digitsIn? 10 digits

def integer? (text : String) : Option Int :=
  let (negative, body) := Double.splitSign text.toList
  (unsigned? body).map fun n => if negative then -(n : Int) else n

/-- Whether a scalar is digits with a needless leading zero.  In a plain scalar they are no number. -/
def hasLeadingZero (text : String) : Bool :=
  match (Double.splitSign text.toList).2 with
  | '0' :: c :: rest => (c :: rest).all Char.isDigit
  | _ => false

/-- The double of a scalar: a finite numeral, or the name of an infinity or of NaN. -/
def double? (text : String) : Option Double :=
  if text ∈ [".inf", ".Inf", ".INF", "+.inf", "+.Inf", "+.INF"] then some (.infinity false)
  else if text ∈ ["-.inf", "-.Inf", "-.INF"] then some (.infinity true)
  else if text ∈ [".nan", ".NaN", ".NAN"] then some .nan
  else (Double.readDecimal? text.toList).filter Double.isFinite

/-- Whether a plain scalar would be read as something else than its text. -/
def isSpecial (text : String) : Bool :=
  isNullWord text || (truth? text).isSome || (integer? text).isSome || (double? text).isSome
    || hasLeadingZero text

/-! ### Scalars as JSON -/

/-- A whole number as a document, if it has one: it has 64 bits, with or without a sign. -/
def wholeJson? (n : Int) : Option Json :=
  if -(Nat.pow 2 63 : Nat) ≤ n ∧ n < (Nat.pow 2 64 : Nat) then some (.integer n) else none

/-- The document of a plain scalar without a tag.  A whole number beyond 64 bits but within 128 has
none, and one beyond is a double. -/
def plainJson? (text : String) : Option Json :=
  let other : Json := if hasLeadingZero text then .string text
    else (double? text).elim (.string text) .ofDouble
  if isNullWord text then some .null
  else
    match truth? text, integer? text with
    | some b, _ => some (.bool b)
    | none, some n =>
      if -(Nat.pow 2 127 : Nat) ≤ n ∧ n < (Nat.pow 2 128 : Nat) then wholeJson? n else some other
    | none, none => some other

/-- What the tags of the schema begin with. -/
def schemaTag : String := "tag:yaml.org,2002:"

/-- Whether a tag is local to the document, and so without a meaning of its own. -/
def isLocalTag (tag : String) : Bool := tag.toList.head? == some '!'

def taggedJson? (tag text : String) : Option Json :=
  if isLocalTag tag then none
  else if tag = schemaTag ++ "bool" then (truth? text).map .bool
  else if tag = schemaTag ++ "int" then (integer? text).bind wholeJson?
  else if tag = schemaTag ++ "float" then (double? text).map .ofDouble
  else if tag = schemaTag ++ "null" then
    if isNullWord text && text != "" then some .null else none
  else some (.string text)

def scalarJson? (tag : Option String) (style : Style) (text : String) : Option Json :=
  match tag, style with
  | some tag, _ => taggedJson? tag text
  | none, .plain => plainJson? text
  | none, _ => some (.string text)

end Yaml

end TemplateExpr
