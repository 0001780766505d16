import TemplateExpr.Expr.Parse

/-!
# The loops of the readers, one round at a time

What a loop does in a round is decided by the token at hand: it ends, or it reads a part and goes on with one
round less.
-/

namespace TemplateExpr

namespace Reader

variable {level : Level} {operand inner : Reader Expr}

theorem firstKind_eq_some {ts : List Token} {kind : TokenKind} (h : firstKind ts = some kind) :
    ∃ p rest, ts = ⟨kind, p⟩ :: rest := by
  cases ts with
  | nil => cases h
  | cons token rest =>
    cases h
    exact ⟨token.position, rest, rfl⟩

theorem firstKind_eq_none {ts : List Token} (h : firstKind ts = none) : ts = [] := by
  cases ts with
  | nil => rfl
  | cons token rest => cases h

/-! ### Infix operators -/

theorem operator?_front {ts rest : List Token} {node : Expr → Expr → Expr}
    (h : level.operator? ts = some (node, rest)) :
    ∃ symbol position, ts = ⟨.symbol symbol, position⟩ :: rest := by
  unfold Level.operator? at h
  split at h
  · obtain ⟨node, _, he⟩ := Option.map_eq_some_iff.1 h
    cases he
    exact ⟨_, _, rfl⟩
  · cases h

theorem operator?_cons (level : Level) (token : Token) :
    (∀ rest, level.operator? (token :: rest) = none) ∨
      ∃ node, ∀ rest, level.operator? (token :: rest) = some (node, rest) := by
  obtain ⟨kind, p⟩ := token
  cases kind with
  | name name => exact .inl fun _ => rfl
  | number x => exact .inl fun _ => rfl
  | string s => exact .inl fun _ => rfl
  | symbol s =>
    cases hs : level s with
    | none => exact .inl fun rest => by rw [Level.operator?, hs]; rfl
    | some node => exact .inr ⟨node, fun rest => by rw [Level.operator?, hs]; rfl⟩

theorem chainFrom_none {ts : List Token} (h : level.operator? ts = none) (bound : List Token)
    (left : Expr) : chainFrom level operand bound left ts = .ok (left, ts) := by
  cases bound with
  | nil => rfl
  | cons token bound => rw [chainFrom, h]

theorem chainFrom_some {ts rest : List Token} {node : Expr → Expr → Expr}
    (h : level.operator? ts = some (node, rest)) (token : Token) (bound : List Token) (left : Expr) :
    chainFrom level operand (token :: bound) left ts =
      operand rest >>= fun read => chainFrom level operand bound (node left read.1) read.2 := by
  simp only [chainFrom, h]
  cases operand rest <;> rfl

theorem chain_apply (ts : List Token) :
    chain level operand ts = operand ts >>= fun read => chainFrom level operand read.2 read.1 read.2 := by
  rw [chain]
  cases operand ts <;> rfl

theorem infixes_induction {cond : Reader Expr → Prop} (h : cond operand)
    (hchain : ∀ level r, cond r → cond (chain level r)) : cond (infixes operand) := by
  have general : ∀ levels : List Level, cond (levels.foldr chain operand) := by
    intro levels
    induction levels with
    | nil => exact h
    | cons level levels ih => exact hchain level _ ih
  exact general levels

/-! ### Arguments -/

/-- What follows an argument: a comma with more arguments, or the closing parenthesis. -/
def argumentsBehind (argument : Reader Expr) (bound : List Token) (done : List Expr) :
    Reader (List Expr) := fun ts =>
  match ts with
  | ⟨.symbol .comma, _⟩ :: rest => argumentsFrom argument bound done rest
  | _ => do
    let (_, rest) ← expect .rightParen ts
    pure (done.reverse, rest)

theorem argumentsFrom_round {ts : List Token} (h : firstKind ts ≠ some (.symbol .rightParen))
    (token : Token) (bound : List Token) (done : List Expr) :
    argumentsFrom inner (token :: bound) done ts =
      inner ts >>= fun read => argumentsBehind inner bound (read.1 :: done) read.2 := by
  rw [argumentsFrom.eq_def]
  split
  · rename_i hbound
    cases hbound
  · exact absurd rfl h
  · rename_i hbound _
    cases hbound
    rfl

theorem argumentsBehind_other {ts : List Token} (h : firstKind ts ≠ some (.symbol .comma))
    (bound : List Token) (done : List Expr) :
    argumentsBehind inner bound done ts =
      expect .rightParen ts >>= fun read => .ok (done.reverse, read.2) := by
  unfold argumentsBehind
  split
  · exact absurd rfl h
  · rfl

/-! ### Members, indexes and calls -/

/-- The name behind a dot. -/
def property : Reader String := fun ts =>
  match ts with
  | ⟨.name name, _⟩ :: rest => .ok (name, rest)
  | _ => unexpected ts

theorem postfixFrom_dot (token : Token) (bound : List Token) (e : Expr) (p : Nat) (ts : List Token) :
    postfixFrom inner (token :: bound) e (⟨.symbol .dot, p⟩ :: ts) =
      property ts >>= fun read => postfixFrom inner bound (.member e read.1) read.2 := by
  rcases ts with _ | ⟨⟨kind, q⟩, rest⟩
  · rfl
  · cases kind <;> rfl

theorem postfixFrom_bracket (token : Token) (bound : List Token) (e : Expr) (p : Nat)
    (ts : List Token) :
    postfixFrom inner (token :: bound) e (⟨.symbol .leftBracket, p⟩ :: ts) =
      inner ts >>= fun key => expect .rightBracket key.2 >>= fun read =>
        postfixFrom inner bound (.index e key.1) read.2 := rfl

theorem postfixFrom_paren (token : Token) (bound : List Token) (e : Expr) (p : Nat) (ts : List Token) :
    postfixFrom inner (token :: bound) e (⟨.symbol .leftParen, p⟩ :: ts) =
      argumentsFrom inner (⟨.symbol .leftParen, p⟩ :: ts) [] ts >>= fun read =>
        postfixFrom inner bound (.call e read.1) read.2 := rfl

/-- The tokens that go on with a postfix expression. -/
def postfixMarks : List TokenKind := [.symbol .dot, .symbol .leftBracket, .symbol .leftParen]

theorem mem_postfixMarks {kind : TokenKind} : kind ∈ postfixMarks ↔
    kind = .symbol .dot ∨ kind = .symbol .leftBracket ∨ kind = .symbol .leftParen := by
  simp only [postfixMarks, List.mem_cons, List.not_mem_nil, or_false]

theorem postfixFrom_other {first : Token} (h : first.kind ∉ postfixMarks) (bound : List Token) (e : Expr)
    (ts : List Token) : postfixFrom inner bound e (first :: ts) = .ok (e, first :: ts) := by
  cases bound with
  | nil => rfl
  | cons token bound =>
    unfold postfixFrom
    split
    · rename_i hts; cases hts; exact absurd (mem_postfixMarks.2 (.inl rfl)) h
    · rename_i hts; cases hts; exact absurd (mem_postfixMarks.2 (.inl rfl)) h
    · rename_i hts; cases hts; exact absurd (mem_postfixMarks.2 (.inr (.inl rfl))) h
    · rename_i hts; cases hts; exact absurd (mem_postfixMarks.2 (.inr (.inr rfl))) h
    · rfl

end Reader

end TemplateExpr
