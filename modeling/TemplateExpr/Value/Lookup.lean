import TemplateExpr.Value.Coerce
import TemplateExpr.Text.Utf16

/-!
# Properties of values

What a value has under a key.  Objects have their fields, arrays and strings their length and the
entries at the canonical decimal indexes, the filter library its filters, and a filter its name.  The
characters of a string are its UTF-16 units, one at a time.
-/

namespace TemplateExpr

/-- The index that a key names: a decimal number without needless zeros or sign. -/
def indexOfKey? (key : String) : Option Nat :=
  let digits := key.toList
  if digits.all Char.isDigit then
    let n := natOfDigits digits
    if Nat.toDigits 10 n = digits then some n else none
  else none

theorem indexOfKey?_eq_some_iff {key : String} {i : Nat} :
    indexOfKey? key = some i ↔ key.toList = Nat.toDigits 10 i := by
  unfold indexOfKey?
  constructor
  · intro h
    obtain ⟨_, h⟩ := Option.ite_none_right_eq_some.1 h
    obtain ⟨hd, h⟩ := Option.ite_none_right_eq_some.1 h
    rw [← Option.some.inj h]
    exact hd.symm
  · intro h
    have hall : (Nat.toDigits 10 i).all Char.isDigit = true := by
      rw [List.all_eq_true]
      intro c hc
      exact Nat.isDigit_of_mem_toDigits (by decide) (by decide) hc
    simp only [h, hall, natOfDigits_toDigits, ite_true]

/-- What a value has under a key: a part of the value itself, something made on reading, or nothing. -/
inductive Property where
  | stored (value : Value)
  | computed (value : Value)
  | missing

namespace Property

/-- A part of a value, if it is there. -/
def ofPart? : Option Value → Property
  | some value => stored value
  | none => missing

/-- Something made on reading, if there is reason to make it. -/
def ofComputed? : Option Value → Property
  | some value => computed value
  | none => missing

/-- What reading gives, undefined if there is nothing. -/
def value : Property → Value
  | stored value => value
  | computed value => value
  | missing => .undefined

end Property

namespace Value

/-- The property of a value under a key; undefined and null have none. -/
def property (key : String) : Value → Property
  | undefined => .missing
  | null => .missing
  | bool _ => .missing
  | number _ => .missing
  | object fields => .ofPart? (fields.get? key)
  | array items =>
    if key = "length" then .computed (number (.ofNat items.length))
    else .ofPart? ((indexOfKey? key).bind fun i => items[i]?)
  | string s =>
    if key = "length" then .computed (number (.ofNat (Utf16.length s.toList)))
    else
      .ofComputed? <| (indexOfKey? key).bind fun i =>
        ((Utf16.units s.toList)[i]?).map fun unit => string (String.ofList [Utf16.charOf unit])
  | filters => .ofComputed? ((Filter.ofName? key).map filter)
  | filter f => if key = "name" then .computed (string f.name) else .missing

end Value

end TemplateExpr
