import TemplateExpr.Value.Basic
import TemplateExpr.Double.Layout
import TemplateExpr.Double.Numeral

/-!
# Coercions

The text, the number and the truth of a value, the name of its type, and its primitive form.  An array
has the texts of its items between commas, with nothing for undefined and null; every other composite
has a fixed text.
-/

namespace TemplateExpr

namespace Value

def filterText (filter : Filter) : String :=
  "function " ++ filter.name ++ "() \x7b [native code] \x7d"

mutual

def text : Value → String
  | undefined => "undefined"
  | null => "null"
  | bool true => "true"
  | bool false => "false"
  | number n => n.text
  | string s => s
  | array items => ",".intercalate (itemTexts items)
  | object _ => "[object Object]"
  | filters => "[object Object]"
  | filter f => filterText f

def itemTexts : List Value → List String
  | [] => []
  | item :: items => (if item.isNullish then "" else item.text) :: itemTexts items

end

/-- The number of a value; NaN where it has none. -/
def toNumber : Value → Double
  | undefined => .nan
  | null => .zero
  | bool value => .ofNat value.toNat
  | number n => n
  | string s => .ofText s
  | array items => .ofText (array items).text
  | object _ => .nan
  | filters => .nan
  | filter _ => .nan

/-- Whether a value counts as true in a condition. -/
def isTruthy : Value → Bool
  | undefined => false
  | null => false
  | bool value => value
  | number n => !n.isZero && !n.isNaN
  | string s => !s.isEmpty
  | array _ => true
  | object _ => true
  | filters => true
  | filter _ => true

/-- The name that `typeof` gives. -/
def typeName : Value → String
  | undefined => "undefined"
  | bool _ => "boolean"
  | number _ => "number"
  | string _ => "string"
  | filter _ => "function"
  | null => "object"
  | array _ => "object"
  | object _ => "object"
  | filters => "object"

/-- The primitive form: composite values become their text. -/
def toPrimitive (v : Value) : Value := if v.isComposite then string v.text else v

theorem isComposite_toPrimitive (v : Value) : v.toPrimitive.isComposite = false := by
  unfold toPrimitive
  split
  · rfl
  · rename_i h
    exact Bool.eq_false_iff.2 h

theorem toPrimitive_toPrimitive (v : Value) : v.toPrimitive.toPrimitive = v.toPrimitive := by
  rw [toPrimitive, isComposite_toPrimitive]
  rfl

theorem text_toPrimitive (v : Value) : v.toPrimitive.text = v.text := by
  unfold toPrimitive
  split
  · rw [text]
  · rfl

end Value

end TemplateExpr
