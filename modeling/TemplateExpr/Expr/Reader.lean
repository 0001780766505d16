import TemplateExpr.Expr.Basic
import TemplateExpr.Token.Basic

/-!
# Readers of token lists

A reader takes something off the front of a list of tokens.  When it fails it says why and where: the
tokens from the one that is at fault.  The readers here are the parts of which the grammar is made; each
takes the readers of its own parts as arguments.

A loop takes a list of tokens for its bound, one round for each.  It is the list at hand when the loop
begins, which is never too short: every round takes at least one token.
-/

namespace TemplateExpr

/-- A failure, with the tokens from the offending one on. -/
structure Stop where
  cause : SyntaxCause
  rest : List Token
  deriving DecidableEq

abbrev Reader (α : Type) := List Token → Except Stop (α × List Token)

/-- What stands first in a list of tokens. -/
def firstKind (ts : List Token) : Option TokenKind := ts.head?.map Token.kind

/-- The failure at a token that cannot stand where it does. -/
def unexpected (ts : List Token) : Except Stop α := .error ⟨.unexpected (firstKind ts), ts⟩

namespace Reader

/-- The failure of anything nested too deeply. -/
def tooDeep : Reader α := fun ts => .error ⟨.tooDeep, ts⟩

/-- One certain symbol. -/
def expect (symbol : Symbol) : Reader Unit := fun ts =>
  match ts with
  | ⟨.symbol s, position⟩ :: rest =>
    if s = symbol then .ok ((), rest)
    else .error ⟨.expected symbol (some (.symbol s)), ⟨.symbol s, position⟩ :: rest⟩
  | _ => .error ⟨.expected symbol (firstKind ts), ts⟩

theorem expect_eq_ok {symbol : Symbol} {ts rest : List Token} (h : expect symbol ts = .ok ((), rest)) :
    ∃ position, ts = ⟨.symbol symbol, position⟩ :: rest := by
  unfold expect at h
  split at h
  · split at h
    · rename_i hs
      cases h
      exact ⟨_, by rw [hs]⟩
    · cases h
  · cases h

/-! ### Infix operators -/

/-- The tree that an infix operator makes of its operands, for the symbols of one level. -/
abbrev Level := Symbol → Option (Expr → Expr → Expr)

/-- The operator at the front of a list of tokens, if it is of a level. -/
def Level.operator? (level : Level) : List Token → Option ((Expr → Expr → Expr) × List Token)
  | ⟨.symbol s, _⟩ :: rest => (level s).map fun node => (node, rest)
  | _ => none

/-- Operators of a level with their right operands, after a left operand. -/
def chainFrom (level : Level) (operand : Reader Expr) : List Token → Expr → Reader Expr
  | [], left, ts => .ok (left, ts)
  | _ :: bound, left, ts =>
    match level.operator? ts with
    | none => .ok (left, ts)
    | some (node, rest) =>
      match operand rest with
      | .error stop => .error stop
      | .ok (right, rest) => chainFrom level operand bound (node left right) rest

/-- Operands between operators of a level, grouped from the left. -/
def chain (level : Level) (operand : Reader Expr) : Reader Expr := fun ts =>
  match operand ts with
  | .error stop => .error stop
  | .ok (left, rest) => chainFrom level operand rest left rest

/-- The levels of infix operators, the loosest first. -/
def levels : List Level := [
  fun s => match s with
    | .or => some (.logical .or)
    | .nullish => some (.logical .nullish)
    | _ => none,
  fun s => match s with
    | .and => some (.logical .and)
    | _ => none,
  fun s => match s with
    | .eq => some (.binary .eq)
    | .notEq => some (.binary .notEq)
    | .strictEq => some (.binary .strictEq)
    | .strictNotEq => some (.binary .strictNotEq)
    | _ => none,
  fun s => match s with
    | .lt => some (.binary .lt)
    | .ltEq => some (.binary .ltEq)
    | .gt => some (.binary .gt)
    | .gtEq => some (.binary .gtEq)
    | _ => none,
  fun s => match s with
    | .plus => some (.binary .add)
    | .minus => some (.binary .sub)
    | _ => none,
  fun s => match s with
    | .star => some (.binary .mul)
    | .slash => some (.binary .div)
    | .percent => some (.binary .rem)
    | _ => none]

/-- Operands between infix operators of any level. -/
def infixes (operand : Reader Expr) : Reader Expr := levels.foldr chain operand

/-! ### Conditionals -/

/-- A test, and the two branches if a question mark follows. -/
def conditional (test branch : Reader Expr) : Reader Expr := fun ts => do
  let (first, rest) ← test ts
  match rest with
  | ⟨.symbol .question, _⟩ :: rest =>
    let (consequent, rest) ← branch rest
    let (_, rest) ← expect .colon rest
    let (alternate, rest) ← branch rest
    pure (.conditional first consequent alternate, rest)
  | _ => pure (first, rest)

/-! ### Primary and postfix expressions -/

/-- The tree of a name: a literal if it is one of the literal words. -/
def ofName (name : String) : Expr :=
  if name = "true" then .literal (.bool true)
  else if name = "false" then .literal (.bool false)
  else if name = "null" then .literal .null
  else if name = "undefined" then .literal .undefined
  else .identifier name

/-- A literal, a name, or an expression in parentheses. -/
def primary (inner : Reader Expr) : Reader Expr := fun ts =>
  match ts with
  | ⟨.number x, _⟩ :: rest => .ok (.literal (.number x), rest)
  | ⟨.string s, _⟩ :: rest => .ok (.literal (.string s), rest)
  | ⟨.name name, _⟩ :: rest => .ok (ofName name, rest)
  | ⟨.symbol .leftParen, _⟩ :: rest => do
    let (e, rest) ← inner rest
    let (_, rest) ← expect .rightParen rest
    pure (e, rest)
  | _ => unexpected ts

/-- Arguments up to the closing parenthesis, behind those of `done` in reverse; a comma may follow the
last one. -/
def argumentsFrom (argument : Reader Expr) : List Token → List Expr → Reader (List Expr)
  | [], _, ts => unexpected ts
  | _ :: _, done, ⟨.symbol .rightParen, _⟩ :: rest => .ok (done.reverse, rest)
  | _ :: bound, done, ts => do
    let (e, rest) ← argument ts
    match rest with
    | ⟨.symbol .comma, _⟩ :: rest => argumentsFrom argument bound (e :: done) rest
    | _ =>
      let (_, rest) ← expect .rightParen rest
      pure ((e :: done).reverse, rest)

/-- Members, indexes and calls after the expression they belong to. -/
def postfixFrom (inner : Reader Expr) : List Token → Expr → Reader Expr
  | [], e, ts => .ok (e, ts)
  | _ :: bound, e, ts =>
    match ts with
    | ⟨.symbol .dot, _⟩ :: ⟨.name property, _⟩ :: rest =>
      postfixFrom inner bound (.member e property) rest
    | ⟨.symbol .dot, _⟩ :: rest => unexpected rest
    | ⟨.symbol .leftBracket, _⟩ :: rest => do
      let (key, rest) ← inner rest
      let (_, rest) ← expect .rightBracket rest
      postfixFrom inner bound (.index e key) rest
    | ⟨.symbol .leftParen, _⟩ :: rest => do
      let (args, rest) ← argumentsFrom inner ts [] rest
      postfixFrom inner bound (.call e args) rest
    | _ => .ok (e, ts)

/-- A primary expression with its members, indexes and calls. -/
def postfixes (inner : Reader Expr) : Reader Expr := fun ts => do
  let (e, rest) ← primary inner ts
  postfixFrom inner rest e rest

/-! ### Unary operators -/

/-- The unary operator of a token. -/
def unaryOp? : TokenKind → Option UnaryOp
  | .symbol .bang => some .not
  | .symbol .minus => some .negate
  | .symbol .plus => some .plus
  | .name text => if text = "typeof" then some .typeof else none
  | _ => none

/-- A unary operator with its operand, or a postfix expression. -/
def unary (operand inner : Reader Expr) : Reader Expr := fun ts =>
  match ts.head?.bind fun t => unaryOp? t.kind with
  | some op => do
    let (e, rest) ← operand ts.tail
    pure (.unary op e, rest)
  | none => postfixes inner ts

end Reader

end TemplateExpr
