import TemplateExpr.Expr.Parse

/-!
# The grammar of expressions

Which lists of tokens are expressions, and which trees they stand for.  A token list ends where the
source ends.  From the loosest form to the tightest:

- program: an expression or nothing, then a semicolon or nothing
- expression: `or`, or `or ? expression : expression`
- or, and, equality, relational, additive, multiplicative: operands of the next form between the
  operators of the level, grouped from the left
- unary: `! - + typeof` before a unary form, or an access
- access: a primary form with members, indexes and calls behind it
- primary: a literal, an identifier, or an expression in parentheses

A derivation counts the levels that it nests: every expression is one level around what it is made of, and
so is every operand of a unary operator.
-/

namespace TemplateExpr

/-- An infix operator. -/
inductive InfixOp where
  | binary (op : BinaryOp)
  | logical (op : LogicalOp)

/-- The tree of an infix operator between its operands. -/
def InfixOp.tree : InfixOp → Expr → Expr → Expr
  | binary op => .binary op
  | logical op => .logical op

/-- The forms of expressions, the loosest first. -/
inductive Category where
  | expr
  | or
  | and
  | equality
  | relational
  | additive
  | multiplicative
  | unary
  | access
  | primary
  deriving DecidableEq

namespace Category

/-- The next tighter form, whose trees a form takes over without a level of nesting. -/
def tighter? : Category → Option Category
  | expr => none
  | or => some and
  | and => some equality
  | equality => some relational
  | relational => some additive
  | additive => some multiplicative
  | multiplicative => some unary
  | unary => some access
  | access => some primary
  | primary => none

/-- The infix operators of a form. -/
def operator? : Category → Symbol → Option InfixOp
  | or, .or => some (.logical .or)
  | or, .nullish => some (.logical .nullish)
  | and, .and => some (.logical .and)
  | equality, .eq => some (.binary .eq)
  | equality, .notEq => some (.binary .notEq)
  | equality, .strictEq => some (.binary .strictEq)
  | equality, .strictNotEq => some (.binary .strictNotEq)
  | relational, .lt => some (.binary .lt)
  | relational, .ltEq => some (.binary .ltEq)
  | relational, .gt => some (.binary .gt)
  | relational, .gtEq => some (.binary .gtEq)
  | additive, .plus => some (.binary .add)
  | additive, .minus => some (.binary .sub)
  | multiplicative, .star => some (.binary .mul)
  | multiplicative, .slash => some (.binary .div)
  | multiplicative, .percent => some (.binary .rem)
  | _, _ => none

end Category

/-- The tokens of unary operators. -/
def unaryOperators : List (TokenKind × UnaryOp) :=
  [(.symbol .bang, .not), (.symbol .minus, .negate), (.symbol .plus, .plus), (.name "typeof", .typeof)]

/-- The words that are literals. -/
def literalWords : List (String × Literal) :=
  [("true", .bool true), ("false", .bool false), ("null", .null), ("undefined", .undefined)]

mutual

/-- A list of tokens derives a tree in a category, with so many levels of nesting. -/
inductive Derives : Category → Nat → List Token → Expr → Prop where
  | plain {n w e} : Derives .or n w e → Derives .expr (n + 1) w e
  | conditional {n m k w u v test consequent alternate p q} :
    Derives .or n w test → Derives .expr m u consequent → Derives .expr k v alternate →
    Derives .expr (max n (max m k) + 1)
      (w ++ ⟨.symbol .question, p⟩ :: (u ++ ⟨.symbol .colon, q⟩ :: v))
      (.conditional test consequent alternate)
  | tighter {c c' n w e} : c.tighter? = some c' → Derives c' n w e → Derives c n w e
  | operator {c c' n m w u left right symbol op p} :
    c.tighter? = some c' → c.operator? symbol = some op → Derives c n w left → Derives c' m u right →
    Derives c (max n m) (w ++ ⟨.symbol symbol, p⟩ :: u) (op.tree left right)
  | unary {n w e kind op p} : (kind, op) ∈ unaryOperators → Derives .unary n w e →
    Derives .unary (n + 1) (⟨kind, p⟩ :: w) (.unary op e)
  | member {n w e property p q} : Derives .access n w e →
    Derives .access n (w ++ [⟨.symbol .dot, p⟩, ⟨.name property, q⟩]) (.member e property)
  | index {n m w u e key p q} : Derives .access n w e → Derives .expr m u key →
    Derives .access (max n m) (w ++ ⟨.symbol .leftBracket, p⟩ :: (u ++ [⟨.symbol .rightBracket, q⟩]))
      (.index e key)
  | callEmpty {n w e p q} : Derives .access n w e →
    Derives .access n (w ++ [⟨.symbol .leftParen, p⟩, ⟨.symbol .rightParen, q⟩]) (.call e [])
  | call {n m w u e arguments p q} : Derives .access n w e → DerivesArguments m u arguments →
    Derives .access (max n m) (w ++ ⟨.symbol .leftParen, p⟩ :: (u ++ [⟨.symbol .rightParen, q⟩]))
      (.call e arguments)
  | number {x p} : Derives .primary 0 [⟨.number x, p⟩] (.literal (.number x))
  | string {s p} : Derives .primary 0 [⟨.string s, p⟩] (.literal (.string s))
  | word {word value p} : (word, value) ∈ literalWords →
    Derives .primary 0 [⟨.name word, p⟩] (.literal value)
  | identifier {name p} : name ∉ literalWords.map Prod.fst → name ≠ "typeof" →
    Derives .primary 0 [⟨.name name, p⟩] (.identifier name)
  | parentheses {n w e p q} : Derives .expr n w e →
    Derives .primary n (⟨.symbol .leftParen, p⟩ :: (w ++ [⟨.symbol .rightParen, q⟩])) e

/-- A list of tokens derives arguments between commas, at least one; a comma may follow the last. -/
inductive DerivesArguments : Nat → List Token → List Expr → Prop where
  | last {n w e} : Derives .expr n w e → DerivesArguments n w [e]
  | lastComma {n w e p} : Derives .expr n w e → DerivesArguments n (w ++ [⟨.symbol .comma, p⟩]) [e]
  | more {n m w u e arguments p} : Derives .expr n w e → DerivesArguments m u arguments →
    DerivesArguments (max n m) (w ++ ⟨.symbol .comma, p⟩ :: u) (e :: arguments)

end

/-- A list of tokens derives the tree of a whole source. -/
inductive DerivesProgram : Nat → List Token → Expr → Prop where
  | empty : DerivesProgram 0 [] (.literal .undefined)
  | emptyClosed {p} : DerivesProgram 0 [⟨.symbol .semicolon, p⟩] (.literal .undefined)
  | expr {n w e} : Derives .expr n w e → DerivesProgram n w e
  | exprClosed {n w e p} : Derives .expr n w e → DerivesProgram n (w ++ [⟨.symbol .semicolon, p⟩]) e

end TemplateExpr
