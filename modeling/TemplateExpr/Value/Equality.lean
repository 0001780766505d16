import TemplateExpr.Value.Coerce
import TemplateExpr.Text.Utf16

/-!
# Equality and order

Strict equality compares values of one kind: numbers as numbers, so NaN differs from itself and the
zeros are equal, containers part by part.  Loose equality compares values of different kinds by their
primitive forms.  The order of values is that of numbers, or of UTF-16 units when both primitive forms
are strings.
-/

namespace TemplateExpr

namespace Value

mutual

def strictEquals : Value → Value → Bool
  | undefined, undefined => true
  | null, null => true
  | bool a, bool b => a == b
  | number a, number b => a.equals b
  | string a, string b => a == b
  | array a, array b => strictEqualItems a b
  | object a, object b => strictEqualFields a b
  | filters, filters => true
  | filter a, filter b => a == b
  | _, _ => false

def strictEqualItems : List Value → List Value → Bool
  | [], [] => true
  | a :: s, b :: t => strictEquals a b && strictEqualItems s t
  | _, _ => false

def strictEqualFields {bound bound' : Option String} : Fields Value bound → Fields Value bound' → Bool
  | .nil, .nil => true
  | .cons j _ a s, .cons k _ b t => j == k && strictEquals a b && strictEqualFields s t
  | _, _ => false

end

/-- What a step of loose equality comes to. -/
inductive LooseStep where
  | settled (equal : Bool)
  /-- Two other values are to be compared instead. -/
  | instead (a b : Value)

/-- One step of loose equality.  Undefined and null equal each other only, and a number is compared with a
string by number.  A boolean gives way to its number, and a composite beside a string or number to its
text; values of one kind are compared strictly. -/
def looseStep (a b : Value) : LooseStep :=
  if a.isNullish || b.isNullish then .settled (a.isNullish && b.isNullish)
  else
    match a, b with
    | number x, string s => .settled (x.equals (string s).toNumber)
    | string s, number y => .settled ((string s).toNumber.equals y)
    | bool p, b => .instead (number (bool p).toNumber) b
    | a, bool q => .instead a (number (bool q).toNumber)
    | a, b =>
      if a.isComposite != b.isComposite then .instead a.toPrimitive b.toPrimitive
      else .settled (a.strictEquals b)

/-- How many steps a value may still give way in: booleans and composites do so once. -/
def looseRank : Value → Nat
  | bool _ => 1
  | v => v.isComposite.toNat

theorem looseRank_toPrimitive (v : Value) :
    v.toPrimitive.looseRank + v.isComposite.toNat = v.looseRank := by
  cases v <;> rfl

theorem looseRank_decreases {a b a' b' : Value} (h : looseStep a b = .instead a' b') :
    a'.looseRank + b'.looseRank < a.looseRank + b.looseRank := by
  unfold looseStep at h
  split at h
  · cases h
  · split at h
    · cases h
    · cases h
    · cases h
      exact Nat.add_lt_add_right Nat.zero_lt_one _
    · cases h
      exact Nat.add_lt_add_left Nat.zero_lt_one _
    · split at h
      · rename_i apart
        cases h
        have ha := looseRank_toPrimitive a
        have hb := looseRank_toPrimitive b
        have one : a.isComposite.toNat + b.isComposite.toNat = 1 := by
          generalize a.isComposite = p at apart
          generalize b.isComposite = q at apart
          revert p q
          decide
        omega
      · cases h

/-- Loose equality: steps until one of them settles it. -/
def looseEquals (a b : Value) : Bool :=
  match _step : looseStep a b with
  | .settled equal => equal
  | .instead a' b' => looseEquals a' b'
termination_by a.looseRank + b.looseRank
decreasing_by exact looseRank_decreases _step

/-- The order of two values, `none` when one counts as NaN. -/
def compare? (a b : Value) : Option Ordering :=
  match a.toPrimitive, b.toPrimitive with
  | string s, string t => some (Utf16.compareStrings s t)
  | p, q => p.toNumber.compare? q.toNumber

end Value

end TemplateExpr
