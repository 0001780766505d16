import TemplateExpr.Value.Basic
import TemplateExpr.Json.Basic

/-!
# Values and JSON documents

Environments come as documents: numbers become doubles, and of members with one key the last one
counts.  Going back, a whole number within 53 bits is written as an integer, and whatever JSON cannot
hold becomes null.
-/

namespace TemplateExpr

namespace Value

mutual

def ofJson : Json → Value
  | .null => null
  | .bool value => bool value
  | .integer n => number (.ofInt n)
  | .float x => number x
  | .string s => string s
  | .array items => array (ofJsonItems items)
  | .object members => object (ofJsonMembers members)

def ofJsonItems : List Json → List Value
  | [] => []
  | item :: items => ofJson item :: ofJsonItems items

def ofJsonMembers : List (String × Json) → Fields Value none
  | [] => .nil
  | (key, value) :: members => (ofJsonMembers members).add key (ofJson value) trivial

end

/-- Whole numbers below this bound are written as integers. -/
def integerBound : Nat := 9007199254740992

def numberJson (x : Double) : Json :=
  match x.toInt? with
  | some n => if n.natAbs < integerBound then .integer n else .ofDouble x
  | none => .ofDouble x

mutual

def toJson : Value → Json
  | undefined => .null
  | null => .null
  | filters => .null
  | filter _ => .null
  | bool value => .bool value
  | number x => numberJson x
  | string s => .string s
  | array items => .array (toJsonItems items)
  | object fields => .object (toJsonFields fields)

def toJsonItems : List Value → List Json
  | [] => []
  | item :: items => toJson item :: toJsonItems items

def toJsonFields {bound : Option String} : Fields Value bound → List (String × Json)
  | .nil => []
  | .cons key _ value fields => (key, toJson value) :: toJsonFields fields

end

end Value

end TemplateExpr
