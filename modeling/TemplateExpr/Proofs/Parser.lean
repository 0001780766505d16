import TemplateExpr.Expr.Parse

/-!
# A parser with a state

The readers hand on the tokens that are left and count the levels of nesting that may still come.  A parser
does the same with one state that all its functions change: the place it has reached among its tokens, and
the depth, which goes up before a level of nesting and down behind it, also behind a failure.

Neither the state nor the tokens bound what a function does.  A loop may go round so many times as it is
given rounds, and so many calls may be within each other as there are levels of calls; a function that wants
more of them does not return.
-/

namespace TemplateExpr

/-- A parser at work.  The end of the source stands behind the last of the tokens. -/
structure Parser where
  tokens : List Token
  position : Nat
  depth : Nat
  limit : Nat
  deriving DecidableEq

namespace Parser

/-- The tokens from the one at hand on; none at the end. -/
def remaining (p : Parser) : List Token := p.tokens.drop p.position

/-- One token further, but not behind the end. -/
def forward (p : Parser) : Parser :=
  if p.position < p.tokens.length then { p with position := p.position + 1 } else p

def deeper (p : Parser) : Parser := { p with depth := p.depth + 1 }

def shallower (p : Parser) : Parser := { p with depth := p.depth - 1 }

/-- What a function makes of a parser: a result or a failure, and the parser as it is then.  A function that
does not return makes nothing of it. -/
abbrev Action (α : Type) := ExceptT Stop (StateT Parser Option) α

/-- A loop that may go round so many times.  A round goes on with something (`inl`) or ends the loop
(`inr`). -/
def loop (round : α → Action (α ⊕ β)) : Nat → α → Action β
  | 0, _ => fun _ => none
  | rounds + 1, a => do
    match ← round a with
    | .inl a => loop round rounds a
    | .inr b => return b

/-- What is done one level of nesting deeper.  The level is left again whatever comes of it. -/
def nested (action : Action α) : Action α := fun p =>
  if p.limit ≤ p.depth then
    some (.error ⟨.tooDeep, p.remaining⟩, p)
  else do
    let (result, q) ← action p.deeper
    some (result, q.shallower)

/-! ### Tokens -/

/-- What stands at hand; nothing at the end. -/
def peek : Action (Option TokenKind) := do
  return firstKind (← get).remaining

def advance : Action Unit := modify forward

def fail (cause : SyntaxCause) : Action α := do
  throw ⟨cause, (← get).remaining⟩

def unexpected : Action α := do
  fail (.unexpected (← peek))

def expect (symbol : Symbol) : Action Unit := do
  let found ← peek
  if found = some (.symbol symbol) then advance else fail (.expected symbol found)

/-! ### Infix operators and conditionals -/

def infixRound (level : Reader.Level) (operand : Action Expr) (left : Expr) : Action (Expr ⊕ Expr) := do
  match level.operator? (← get).remaining with
  | none => return .inr left
  | some (node, _) =>
    advance
    let right ← operand
    return .inl (node left right)

def chain (rounds : Nat) (level : Reader.Level) (operand : Action Expr) : Action Expr := do
  let left ← operand
  loop (infixRound level operand) rounds left

def infixes (rounds : Nat) (operand : Action Expr) : Action Expr :=
  Reader.levels.foldr (chain rounds) operand

def conditional (test branch : Action Expr) : Action Expr := do
  let first ← test
  if (← peek) = some (.symbol .question) then
    advance
    let consequent ← branch
    expect .colon
    let alternate ← branch
    return .conditional first consequent alternate
  else
    return first

/-! ### Primary, postfix and unary expressions -/

def primary (inner : Action Expr) : Action Expr := do
  match ← peek with
  | some (.number x) =>
    advance
    return .literal (.number x)
  | some (.string s) =>
    advance
    return .literal (.string s)
  | some (.name name) =>
    advance
    return Reader.ofName name
  | some (.symbol .leftParen) =>
    advance
    let e ← inner
    expect .rightParen
    return e
  | _ => unexpected

/-- What follows an argument: a comma goes on with the arguments, anything else ends them. -/
def behindArgument (done : List Expr) : Action (List Expr ⊕ List Expr) := do
  if (← peek) = some (.symbol .comma) then
    advance
    return .inl done
  else
    return .inr done

def argumentsRound (inner : Action Expr) (done : List Expr) : Action (List Expr ⊕ List Expr) := do
  if (← peek) = some (.symbol .rightParen) then
    return .inr done
  else
    let e ← inner
    behindArgument (done ++ [e])

def closeArguments (done : List Expr) : Action (List Expr) := do
  expect .rightParen
  return done

/-- The arguments of a call, behind its opening parenthesis. -/
def arguments (rounds : Nat) (inner : Action Expr) : Action (List Expr) := do
  let done ← loop (argumentsRound inner) rounds []
  closeArguments done

/-- The name behind a dot. -/
def property : Action String := do
  match ← peek with
  | some (.name name) =>
    advance
    return name
  | _ => unexpected

def postfixRound (rounds : Nat) (inner : Action Expr) (e : Expr) : Action (Expr ⊕ Expr) := do
  match ← peek with
  | some (.symbol .dot) =>
    advance
    let name ← property
    return .inl (.member e name)
  | some (.symbol .leftBracket) =>
    advance
    let key ← inner
    expect .rightBracket
    return .inl (.index e key)
  | some (.symbol .leftParen) =>
    advance
    let args ← arguments rounds inner
    return .inl (.call e args)
  | _ => return .inr e

def postfixes (rounds : Nat) (inner : Action Expr) : Action Expr := do
  let e ← primary inner
  loop (postfixRound rounds inner) rounds e

def unary (rounds : Nat) (operand inner : Action Expr) : Action Expr := do
  match (← peek).bind Reader.unaryOp? with
  | none => postfixes rounds inner
  | some op =>
    advance
    let e ← operand
    return .unary op e

/-! ### Expressions -/

mutual

/-- An expression, with so many levels of calls for it and what is in it. -/
def expr (rounds : Nat) : Nat → Action Expr
  | 0 => fun _ => none
  | calls + 1 =>
    nested (conditional (infixes rounds (unary rounds (operand rounds calls) (expr rounds calls)))
      (expr rounds calls))

/-- The operand of a unary operator. -/
def operand (rounds : Nat) : Nat → Action Expr
  | 0 => fun _ => none
  | calls + 1 => nested (unary rounds (operand rounds calls) (expr rounds calls))

end

/-! ### The forms between an expression and its parts -/

def unaryExpr (rounds calls : Nat) : Action Expr := unary rounds (operand rounds calls) (expr rounds calls)

/-- Operands between the operators of some levels, the loosest first. -/
def infixExpr (levels : List Reader.Level) (rounds calls : Nat) : Action Expr :=
  levels.foldr (chain rounds) (unaryExpr rounds calls)

def conditionalExpr (rounds calls : Nat) : Action Expr :=
  conditional (infixExpr Reader.levels rounds calls) (expr rounds calls)

def postfixExpr (rounds calls : Nat) : Action Expr := postfixes rounds (expr rounds calls)

def callArguments (rounds calls : Nat) : Action (List Expr) := arguments rounds (expr rounds calls)

def primaryExpr (rounds calls : Nat) : Action Expr := primary (expr rounds calls)

theorem expr_succ (rounds calls : Nat) : expr rounds (calls + 1) = nested (conditionalExpr rounds calls) := rfl

theorem operand_succ (rounds calls : Nat) : operand rounds (calls + 1) = nested (unaryExpr rounds calls) := rfl

/-! ### Whole sources -/

/-- An expression, or nothing before the end or a semicolon. -/
def optionalExpr (rounds calls : Nat) : Action Expr := do
  let found ← peek
  if found = some (.symbol .semicolon) ∨ found = none then
    return .literal .undefined
  else
    expr rounds calls

/-- Nothing may follow any more. -/
def finish (e : Expr) : Action Expr := do
  if (← peek) = none then return e else unexpected

def ending (e : Expr) : Action Expr := do
  if (← peek) = some (.symbol .semicolon) then
    advance
    finish e
  else
    finish e

def program (rounds calls : Nat) : Action Expr := do
  let e ← optionalExpr rounds calls
  ending e

end Parser

end TemplateExpr
