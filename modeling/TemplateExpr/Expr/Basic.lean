import TemplateExpr.Value.Basic

/-!
# Expressions

The tree of a template: literals, the two bound names, member access, calls and operators.
-/

namespace TemplateExpr

inductive Literal where
  | undefined
  | null
  | bool (value : Bool)
  | number (value : Double)
  | string (value : String)
  deriving DecidableEq

inductive UnaryOp where
  | not
  | negate
  | plus
  | typeof
  deriving DecidableEq

inductive BinaryOp where
  | add
  | sub
  | mul
  | div
  | rem
  | lt
  | ltEq
  | gt
  | gtEq
  | eq
  | notEq
  | strictEq
  | strictNotEq
  deriving DecidableEq

/-- The operators that evaluate their right operand only if the left one does not decide. -/
inductive LogicalOp where
  | and
  | or
  | nullish
  deriving DecidableEq

inductive Expr where
  | literal (value : Literal)
  | identifier (name : String)
  | member (object : Expr) (property : String)
  | index (object : Expr) (key : Expr)
  | call (callee : Expr) (arguments : List Expr)
  | unary (op : UnaryOp) (operand : Expr)
  | binary (op : BinaryOp) (left right : Expr)
  | logical (op : LogicalOp) (left right : Expr)
  | conditional (test consequent alternate : Expr)

instance : Inhabited Expr := ⟨.literal .undefined⟩

/-- Induction on trees, with the arguments of a call one by one. -/
@[elab_as_elim, induction_eliminator]
theorem Expr.induction {motive : Expr → Prop}
    (literal : ∀ value, motive (.literal value))
    (identifier : ∀ name, motive (.identifier name))
    (member : ∀ object property, motive object → motive (.member object property))
    (index : ∀ object key, motive object → motive key → motive (.index object key))
    (call : ∀ callee arguments, motive callee → (∀ e ∈ arguments, motive e) →
      motive (.call callee arguments))
    (unary : ∀ op operand, motive operand → motive (.unary op operand))
    (binary : ∀ op left right, motive left → motive right → motive (.binary op left right))
    (logical : ∀ op left right, motive left → motive right → motive (.logical op left right))
    (conditional : ∀ test consequent alternate, motive test → motive consequent → motive alternate →
      motive (.conditional test consequent alternate)) (e : Expr) : motive e :=
  @Expr.rec motive (fun es => ∀ e ∈ es, motive e) literal identifier member index call unary binary logical
    conditional (fun _ h => absurd h List.not_mem_nil)
    (fun _ _ first others e h => (List.mem_cons.1 h).elim (fun he => he ▸ first) (others e)) e

def Literal.toValue : Literal → Value
  | undefined => .undefined
  | null => .null
  | bool value => .bool value
  | number value => .number value
  | string value => .string value

def UnaryOp.symbol : UnaryOp → String
  | not => "!"
  | negate => "-"
  | plus => "+"
  | typeof => "typeof "

def BinaryOp.symbol : BinaryOp → String
  | add => "+"
  | sub => "-"
  | mul => "*"
  | div => "/"
  | rem => "%"
  | lt => "<"
  | ltEq => "<="
  | gt => ">"
  | gtEq => ">="
  | eq => "=="
  | notEq => "!="
  | strictEq => "==="
  | strictNotEq => "!=="

def LogicalOp.symbol : LogicalOp → String
  | and => "&&"
  | or => "||"
  | nullish => "??"

end TemplateExpr
