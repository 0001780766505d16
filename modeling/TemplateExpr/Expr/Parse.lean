import TemplateExpr.Expr.Reader
import TemplateExpr.Token.Scan

/-!
# From source to tree

A source is one expression, which a semicolon may follow; an empty source is `undefined`.  Every
expression and every operand of a unary operator is a level of nesting, and the number of levels within
each other is limited: `nestedExpr` and `nestedUnary` read one level, given how many are left.
-/

namespace TemplateExpr

namespace Reader

mutual

/-- An expression, one level deeper, with `room` levels left for it and what is in it. -/
def nestedExpr : Nat → Reader Expr
  | 0, ts => tooDeep ts
  | room + 1, ts =>
    conditional (infixes (unary (nestedUnary room) (nestedExpr room))) (nestedExpr room) ts

/-- The operand of a unary operator, one level deeper. -/
def nestedUnary : Nat → Reader Expr
  | 0, ts => tooDeep ts
  | room + 1, ts => unary (nestedUnary room) (nestedExpr room) ts

end

/-- An expression, or nothing before the end or a semicolon. -/
def optionalExpr (limit : Nat) : Reader Expr := fun ts =>
  match ts with
  | [] => .ok (.literal .undefined, ts)
  | ⟨.symbol .semicolon, _⟩ :: _ => .ok (.literal .undefined, ts)
  | _ => nestedExpr limit ts

/-- The end of a source behind its tree: a semicolon or nothing. -/
def ending (e : Expr) : List Token → Except Stop Expr
  | [] => .ok e
  | [⟨.symbol .semicolon, _⟩] => .ok e
  | ⟨.symbol .semicolon, _⟩ :: rest => unexpected rest
  | rest => unexpected rest

/-- A whole source: an expression or nothing, and a semicolon or nothing. -/
def program (limit : Nat) (ts : List Token) : Except Stop Expr := do
  let (e, rest) ← optionalExpr limit ts
  ending e rest

end Reader

/-- The place of a failure in a source of a given size. -/
def Stop.toSyntaxError (stop : Stop) (size : Nat) : SyntaxError :=
  ⟨stop.cause, match stop.rest with
    | token :: _ => token.position
    | [] => size⟩

/-- The nesting that is allowed unless another limit is given. -/
def defaultNesting : Nat := 64

namespace Expr

/-- The tree of a source, with at most `limit` levels of nesting. -/
def parseWithin (limit : Nat) (source : String) : Except SyntaxError Expr := do
  let tokens ← tokenize source
  match Reader.program limit tokens with
  | .ok e => pure e
  | .error stop => .error (stop.toSyntaxError source.utf8ByteSize)

def parse (source : String) : Except SyntaxError Expr := parseWithin defaultNesting source

end Expr

end TemplateExpr
