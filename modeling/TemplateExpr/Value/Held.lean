import TemplateExpr.Value.Lookup

/-!
# Values in use

During evaluation a value is either lent out of the environment or owned.  A part of a lent value is lent
too; what is read from an owned value, and what reading makes, is owned.
-/

namespace TemplateExpr

/-- A value in use. -/
inductive Held where
  | lent (value : Value)
  | owned (value : Value)

namespace Held

def value : Held → Value
  | lent value => value
  | owned value => value

@[simp] theorem value_lent (v : Value) : (lent v).value = v := rfl

@[simp] theorem value_owned (v : Value) : (owned v).value = v := rfl

/-- The property of a value in use under a key. -/
def property (key : String) : Held → Held
  | lent object =>
    match object.property key with
    | .stored part => lent part
    | .computed made => owned made
    | .missing => owned .undefined
  | owned object => owned (object.property key).value

theorem value_property (key : String) (held : Held) :
    (held.property key).value = (held.value.property key).value := by
  cases held with
  | lent object =>
    simp only [property, value_lent]
    cases object.property key <;> rfl
  | owned object => rfl

end Held

end TemplateExpr
