import TemplateExpr.Error
import TemplateExpr.Filter
import TemplateExpr.Value.Equality

/-!
# Evaluation

Two names are bound in an expression, the filter library and the environment.  Objects, callees and left
operands stand on the *spine* of a tree: evaluation goes down the spine to its innermost operand and
then applies the *links* of the spine one after the other, so a long concatenation needs no depth.
Everything else (indexes, arguments, right operands, operands of unary operators, the parts of a
conditional) is evaluated one level deeper, and the number of levels is limited.

Values read out of the environment are lent until an operator or filter makes a new one, and a sum whose
left operand is an owned string extends that string.
-/

namespace TemplateExpr

/-- The names of the filter library and of the environment. -/
structure Bindings where
  filters : String
  env : String
  deriving DecidableEq

/-- What the names of an expression stand for. -/
structure Scope where
  bindings : Bindings
  env : Value

/-- A step of the spine, applied to the value of all that is left of it. -/
inductive Link where
  | member (property : String)
  | index (key : Expr)
  | call (callee : Expr) (arguments : List Expr)
  | binary (op : BinaryOp) (right : Expr)
  | logical (op : LogicalOp) (right : Expr)

/-- The innermost operand of the spine of a tree, and the links from there to the root, in front of
`links`. -/
def Expr.spineOnto : Expr → List Link → Expr × List Link
  | member object property, links => object.spineOnto (.member property :: links)
  | index object key, links => object.spineOnto (.index key :: links)
  | call callee arguments, links => callee.spineOnto (.call callee arguments :: links)
  | binary op left right, links => left.spineOnto (.binary op right :: links)
  | logical op left right, links => left.spineOnto (.logical op right :: links)
  | e, links => (e, links)

theorem Expr.spineOnto_eq : (e : Expr) → (links : List Link) →
    e.spineOnto links = ((e.spineOnto []).1, (e.spineOnto []).2 ++ links)
  | .member object property, links => by
    rw [spineOnto, spineOnto, spineOnto_eq object (.member property :: links),
      spineOnto_eq object [.member property], List.append_assoc]
    rfl
  | .index object key, links => by
    rw [spineOnto, spineOnto, spineOnto_eq object (.index key :: links),
      spineOnto_eq object [.index key], List.append_assoc]
    rfl
  | .call callee arguments, links => by
    rw [spineOnto, spineOnto, spineOnto_eq callee (.call callee arguments :: links),
      spineOnto_eq callee [.call callee arguments], List.append_assoc]
    rfl
  | .binary op left right, links => by
    rw [spineOnto, spineOnto, spineOnto_eq left (.binary op right :: links),
      spineOnto_eq left [.binary op right], List.append_assoc]
    rfl
  | .logical op left right, links => by
    rw [spineOnto, spineOnto, spineOnto_eq left (.logical op right :: links),
      spineOnto_eq left [.logical op right], List.append_assoc]
    rfl
  | .literal _, _ => rfl
  | .identifier _, _ => rfl
  | .unary _ _, _ => rfl
  | .conditional _ _ _, _ => rfl

/-- The property of a value, undefined if it has none; undefined and null have no properties at all. -/
def readMember (object : Held) (key : String) : Except Error Held :=
  if object.value.isNullish then .error (.noProperties object.value.text key)
  else .ok (object.property key)

/-- The sum of two values: the concatenation of their texts if either primitive form is a string. -/
def addValues (left right : Value) : Value :=
  match left.toPrimitive, right.toPrimitive with
  | .string s, p => .string (s ++ p.text)
  | p, .string t => .string (p.text ++ t)
  | p, q => .number (p.toNumber.add q.toNumber)

def BinaryOp.apply (op : BinaryOp) (left right : Value) : Value :=
  match op with
  | add => addValues left right
  | sub => .number (left.toNumber.sub right.toNumber)
  | mul => .number (left.toNumber.mul right.toNumber)
  | div => .number (left.toNumber.div right.toNumber)
  | rem => .number (left.toNumber.rem right.toNumber)
  | lt => .bool (left.compare? right == some .lt)
  | ltEq => .bool (left.compare? right == some .lt || left.compare? right == some .eq)
  | gt => .bool (left.compare? right == some .gt)
  | gtEq => .bool (left.compare? right == some .gt || left.compare? right == some .eq)
  | eq => .bool (left.looseEquals right)
  | notEq => .bool (!left.looseEquals right)
  | strictEq => .bool (left.strictEquals right)
  | strictNotEq => .bool (!left.strictEquals right)

/-- The value of a binary operator on values in use: a sum extends an owned string by the text of the
right operand, everything else is computed from the two values. -/
def BinaryOp.combine (op : BinaryOp) (left right : Held) : Held :=
  match op, left with
  | add, .owned (.string s) => .owned (.string (s ++ right.value.toPrimitive.text))
  | op, left => .owned (op.apply left.value right.value)

def UnaryOp.apply (op : UnaryOp) (v : Value) : Value :=
  match op with
  | not => .bool (!v.isTruthy)
  | negate => .number v.toNumber.neg
  | plus => .number v.toNumber
  | typeof => .string v.typeName

/-- Whether the left operand of a logical operator is already the result. -/
def LogicalOp.decides (op : LogicalOp) (left : Value) : Bool :=
  match op with
  | and => !left.isTruthy
  | or => left.isTruthy
  | nullish => !left.isNullish

namespace Scope

def resolve (scope : Scope) (name : String) : Except Error Held :=
  if name = scope.bindings.filters then .ok (.owned .filters)
  else if name = scope.bindings.env then .ok (.lent scope.env)
  else .error (.unbound name)

def binds (scope : Scope) (name : String) : Bool :=
  name == scope.bindings.filters || name == scope.bindings.env

/-- A call with its evaluated arguments: filters take the first one and leave the others. -/
def applyCall (callee : Expr) (function : Held) (arguments : List Held) : Except Error Held :=
  match function.value with
  | .filter f => .ok (f.call (arguments.head?.getD (.owned .undefined)))
  | _ => .error (.notCallable callee)

/-- The value of the innermost operand of a spine, given how deeper trees are evaluated. -/
def headValue (scope : Scope) (deeper : Expr → Except Error Held) :
    Expr → Except Error Held
  | .literal value => .ok (.owned value.toValue)
  | .identifier name => scope.resolve name
  | .unary .typeof (.identifier name) =>
    if scope.binds name then
      (deeper (.identifier name)).map fun operand => .owned (UnaryOp.typeof.apply operand.value)
    else .ok (.owned (.string "undefined"))
  | .unary op operand => (deeper operand).map fun operand => .owned (op.apply operand.value)
  | .conditional test consequent alternate => do
    if (← deeper test).value.isTruthy then deeper consequent else deeper alternate
  | e => deeper e

/-- The value of a link, given the value on its left and how deeper trees are evaluated. -/
def applyLink (deeper : Expr → Except Error Held) (left : Held) :
    Link → Except Error Held
  | .member property => readMember left property
  | .index key => do readMember left (← deeper key).value.text
  | .call callee arguments => do applyCall callee left (← arguments.mapM deeper)
  | .binary op right => do pure (op.combine left (← deeper right))
  | .logical op right => if op.decides left.value then .ok left else deeper right

/-- The value of a tree, with `room` levels left for it and what is in it. -/
def evalWithin (scope : Scope) : Nat → Expr → Except Error Held
  | 0, _ => .error .tooDeep
  | room + 1, e => do
    let (innermost, links) := e.spineOnto []
    let value ← scope.headValue (evalWithin scope room) innermost
    links.foldlM (applyLink (evalWithin scope room)) value

end Scope

/-- The greatest number of levels. -/
def maxDepth : Nat := 512

def Expr.evaluate (bindings : Bindings) (env : Value) (e : Expr) : Except Error Value :=
  (Scope.evalWithin ⟨bindings, env⟩ maxDepth e).map Held.value

end TemplateExpr
