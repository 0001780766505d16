import TemplateExpr.Proofs.ParserState

/-!
# The functions of the parser, one after the other

Each function mirrors the reader of the same form, given that the functions it calls do.  Every round with
which a loop goes on has taken a token, so more rounds than there are tokens left are never wanted; and the
limit is met before the calls are more levels deep than it leaves room for.
-/

namespace TemplateExpr

namespace Parser

variable {p q : Parser} {n rounds : Nat}

theorem firstKind_cons (token : Token) (rest : List Token) : firstKind (token :: rest) = some token.kind := rfl

/-! ### Infix operators and conditionals -/

section Infix

variable {level : Reader.Level} {operand : Action Expr} {reader : Reader Expr} {left : Expr}

theorem infixRound_none (h : level.operator? p.remaining = none) (next : Expr ⊕ Expr → Action α) :
    (infixRound level operand left >>= next) p = next (.inr left) p := by
  rw [infixRound, bind_assoc, get_bind, h, pure_bind]

theorem infixRound_some {node : Expr → Expr → Expr} {rest : List Token}
    (h : level.operator? p.remaining = some (node, rest)) (next : Expr ⊕ Expr → Action α) :
    (infixRound level operand left >>= next) p =
      (advance >>= fun _ => operand >>= fun right => next (.inl (node left right))) p := by
  rw [infixRound, bind_assoc, get_bind, h]
  simp only [bind_assoc, pure_bind]

theorem infixLoop_follows {k : Nat} (level : Reader.Level) (h : Mirrors rounds n operand reader)
    (bound : List Token) (left : Expr) (hp : Ready rounds n p) (hbound : p.remaining.length ≤ bound.length)
    (hk : p.remaining.length < k) :
    Follows 0 p (loop (infixRound level operand) k left p)
      (Reader.chainFrom level reader bound left p.remaining) := by
  -- The rounds left and the bound of the reader's loop both stay ahead of the tokens left.
  induction k generalizing bound left p with
  | zero => exact absurd hk (Nat.not_lt_zero _)
  | succ k ih =>
    rw [loop_succ]
    cases hop : level.operator? p.remaining with
    | none =>
      rw [infixRound_none hop, Reader.chainFrom_none hop]
      exact .pure hp.within rfl left
    | some found =>
      obtain ⟨node, rest⟩ := found
      obtain ⟨symbol, position, hts⟩ := Reader.operator?_front hop
      cases bound with
      | nil =>
        rw [hts] at hbound
        exact absurd hbound (Nat.not_succ_le_zero _)
      | cons token bound =>
        rw [infixRound_some hop, Reader.chainFrom_some hop]
        rw [List.length_cons] at hbound
        refine (hp.advance hts fun q₁ h₁ hp₁ hrest => ?_).weaken
        rw [← hrest]
        refine (h.bind hp₁ fun right q₂ h₂ hp₂ => ?_).weaken
        have hlength := (h₁.trans h₂).length_le
        exact ih bound (node left right) hp₂ (by omega) (by omega)

theorem chain_mirrors (h : Mirrors rounds n operand reader) (level : Reader.Level) :
    Mirrors rounds n (chain rounds level operand) (Reader.chain level reader) := by
  intro p hp
  rw [chain, Reader.chain_apply]
  refine h.bind hp fun left q hq hp' => ?_
  exact infixLoop_follows level h q.remaining left hp' (Nat.le_refl _) hp'.few

theorem chains_mirror (h : Mirrors rounds n operand reader) (levels : List Reader.Level) :
    Mirrors rounds n (levels.foldr (chain rounds) operand) (levels.foldr Reader.chain reader) := by
  induction levels with
  | nil => exact h
  | cons level levels ih => exact chain_mirrors ih level

theorem conditional_mirrors {test branch : Action Expr} {test' branch' : Reader Expr}
    (ht : Mirrors rounds n test test') (hb : Mirrors rounds n branch branch') :
    Mirrors rounds n (conditional test branch) (Reader.conditional test' branch') := by
  intro p hp
  refine ht.bind hp fun first q hq hp' => ?_
  rw [peek_bind]
  dsimp only
  by_cases hquestion : firstKind q.remaining = some (.symbol .question)
  · obtain ⟨position, rest, hts⟩ := Reader.firstKind_eq_some hquestion
    rw [if_pos hquestion, hts]
    refine (hp'.advance hts fun q₁ h₁ hp₁ hrest => ?_).weaken
    rw [← hrest]
    refine (hb.bind hp₁ fun consequent q₂ h₂ hp₂ => ?_).weaken
    refine ((expect_mirrors .colon).bind hp₂ fun _ q₃ h₃ hp₃ => ?_).weaken
    refine (hb.bind hp₃ fun alternate q₄ h₄ hp₄ => ?_).weaken
    exact .pure hp₄.within rfl (Expr.conditional first consequent alternate)
  · rw [if_neg hquestion]
    split
    · rename_i hts
      rw [hts] at hquestion
      exact absurd rfl hquestion
    · exact .pure hp'.within rfl first

end Infix

/-! ### Primary expressions -/

section Postfix

variable {inner : Action Expr} {reader : Reader Expr}

theorem primary_mirrors (h : Mirrors rounds n inner reader) :
    Mirrors rounds n (primary inner) (Reader.primary reader) := by
  intro p hp
  rw [primary, peek_bind]
  rcases hts : p.remaining with _ | ⟨⟨kind, position⟩, rest⟩
  · exact .unexpected hp.within hts
  · cases kind with
    | number x => exact hp.advance hts fun q hq hp' hrest => .pure hp'.within hrest _
    | string s => exact hp.advance hts fun q hq hp' hrest => .pure hp'.within hrest _
    | name name => exact hp.advance hts fun q hq hp' hrest => .pure hp'.within hrest _
    | symbol s =>
      cases s with
      | leftParen =>
        refine hp.advance hts fun q₁ h₁ hp₁ hrest => ?_
        rw [← hrest]
        refine (h.bind hp₁ fun e q₂ h₂ hp₂ => ?_).weaken
        refine ((expect_mirrors .rightParen).bind hp₂ fun _ q₃ h₃ hp₃ => ?_).weaken
        exact .pure hp₃.within rfl e
      | _ => exact .unexpected hp.within hts

/-! ### Arguments -/

theorem argumentsRound_close (h : firstKind p.remaining = some (.symbol .rightParen)) (done : List Expr)
    (next : List Expr ⊕ List Expr → Action α) :
    (argumentsRound inner done >>= next) p = next (.inr done) p := by
  rw [argumentsRound, bind_assoc, peek_bind, if_pos h, pure_bind]

theorem argumentsRound_open (h : firstKind p.remaining ≠ some (.symbol .rightParen)) (done : List Expr)
    (next : List Expr ⊕ List Expr → Action α) :
    (argumentsRound inner done >>= next) p =
      (inner >>= fun e => behindArgument (done ++ [e]) >>= next) p := by
  rw [argumentsRound, bind_assoc, peek_bind, if_neg h, bind_assoc]

theorem behindArgument_comma (h : firstKind p.remaining = some (.symbol .comma)) (done : List Expr)
    (next : List Expr ⊕ List Expr → Action α) :
    (behindArgument done >>= next) p = (advance >>= fun _ => next (.inl done)) p := by
  rw [behindArgument, bind_assoc, peek_bind, if_pos h, bind_assoc]
  rfl

theorem behindArgument_other (h : firstKind p.remaining ≠ some (.symbol .comma)) (done : List Expr)
    (next : List Expr ⊕ List Expr → Action α) :
    (behindArgument done >>= next) p = next (.inr done) p := by
  rw [behindArgument, bind_assoc, peek_bind, if_neg h, pure_bind]

theorem closeArguments_mirrors (done : List Expr) :
    Mirrors rounds n (closeArguments done) fun ts =>
      Reader.expect .rightParen ts >>= fun read => .ok (done, read.2) := by
  intro p hp
  refine (expect_mirrors .rightParen).bind hp fun _ q hq hp' => ?_
  exact .pure hp'.within rfl done

theorem argumentsLoop_follows {k : Nat} (h : Mirrors rounds n inner reader) (bound : List Token)
    (done : List Expr) (hp : Ready rounds n p) (hbound : p.remaining.length < bound.length)
    (hk : p.remaining.length < k) :
    Follows 1 p ((loop (argumentsRound inner) k done.reverse >>= closeArguments) p)
      (Reader.argumentsFrom reader bound done p.remaining) := by
  induction k generalizing bound done p with
  | zero => exact absurd hk (Nat.not_lt_zero _)
  | succ k ih =>
    obtain ⟨token, bound, rfl⟩ := List.exists_cons_of_length_pos (Nat.zero_lt_of_lt hbound)
    rw [List.length_cons] at hbound
    rw [loop_succ, bind_assoc]
    by_cases hclose : firstKind p.remaining = some (.symbol .rightParen)
    · rw [argumentsRound_close hclose]
      -- Nothing yet, or a comma, stands before the parenthesis.
      obtain ⟨position, rest, hts⟩ := Reader.firstKind_eq_some hclose
      have hread := closeArguments_mirrors done.reverse p hp
      rw [hts] at hread
      rw [hts]
      exact hread
    · rw [argumentsRound_open hclose, Reader.argumentsFrom_round hclose]
      refine h.bind hp fun e q hq hp' => ?_
      rw [← List.reverse_cons]
      by_cases hcomma : firstKind q.remaining = some (.symbol .comma)
      · obtain ⟨position, rest, hts⟩ := Reader.firstKind_eq_some hcomma
        rw [behindArgument_comma hcomma]
        dsimp only
        rw [hts]
        refine (hp'.advance hts fun q₁ h₁ hp₁ hrest => ?_).weaken
        have hlength := (hq.trans h₁).length_le
        have hmore := ih bound (e :: done) hp₁ (by omega) (by omega)
        rw [hrest] at hmore
        exact hmore.weaken
      · rw [behindArgument_other hcomma]
        dsimp only
        rw [Reader.argumentsBehind_other hcomma]
        exact (closeArguments_mirrors (e :: done).reverse q hp').weaken

theorem arguments_mirrors (h : Mirrors rounds n inner reader) (first : Token) :
    Mirrors rounds n (arguments rounds inner) fun ts => Reader.argumentsFrom reader (first :: ts) [] ts := by
  intro p hp
  exact argumentsLoop_follows h (first :: p.remaining) [] hp (Nat.lt_succ_self _) hp.few

/-! ### Members, indexes and calls -/

theorem property_mirrors : Mirrors rounds n property Reader.property := by
  intro p hp
  rw [property, peek_bind]
  rcases hts : p.remaining with _ | ⟨⟨kind, position⟩, rest⟩
  · exact .unexpected hp.within hts
  · cases kind with
    | name name => exact hp.advance hts fun q hq hp' hrest => .pure hp'.within hrest name
    | number x => exact .unexpected hp.within hts
    | string s => exact .unexpected hp.within hts
    | symbol s => exact .unexpected hp.within hts

section Round

variable {position : Nat} {rest : List Token} {e : Expr} (next : Expr ⊕ Expr → Action α)

theorem postfixRound_dot (h : p.remaining = ⟨.symbol .dot, position⟩ :: rest) :
    (postfixRound rounds inner e >>= next) p =
      (advance >>= fun _ => property >>= fun name => next (.inl (.member e name))) p := by
  rw [postfixRound, bind_assoc, peek_bind, h]
  simp only [firstKind_cons, bind_assoc, pure_bind]

theorem postfixRound_bracket (h : p.remaining = ⟨.symbol .leftBracket, position⟩ :: rest) :
    (postfixRound rounds inner e >>= next) p =
      (advance >>= fun _ => inner >>= fun key => expect .rightBracket >>= fun _ =>
        next (.inl (.index e key))) p := by
  rw [postfixRound, bind_assoc, peek_bind, h]
  simp only [firstKind_cons, bind_assoc, pure_bind]

theorem postfixRound_paren (h : p.remaining = ⟨.symbol .leftParen, position⟩ :: rest) :
    (postfixRound rounds inner e >>= next) p =
      (advance >>= fun _ => arguments rounds inner >>= fun args => next (.inl (.call e args))) p := by
  rw [postfixRound, bind_assoc, peek_bind, h]
  simp only [firstKind_cons, bind_assoc, pure_bind]

theorem postfixRound_end (h : p.remaining = []) :
    (postfixRound rounds inner e >>= next) p = next (.inr e) p := by
  rw [postfixRound, bind_assoc, peek_bind, h]
  rfl

theorem postfixRound_other {token : Token} (h : p.remaining = token :: rest)
    (hmark : token.kind ∉ Reader.postfixMarks) :
    (postfixRound rounds inner e >>= next) p = next (.inr e) p := by
  rw [postfixRound, bind_assoc, peek_bind, h, firstKind_cons]
  split
  · rename_i hkind
    exact absurd (Reader.mem_postfixMarks.2 (.inl (Option.some.inj hkind))) hmark
  · rename_i hkind
    exact absurd (Reader.mem_postfixMarks.2 (.inr (.inl (Option.some.inj hkind)))) hmark
  · rename_i hkind
    exact absurd (Reader.mem_postfixMarks.2 (.inr (.inr (Option.some.inj hkind)))) hmark
  · rw [pure_bind]

end Round

theorem postfixFrom_end (bound : List Token) (e : Expr) :
    Reader.postfixFrom reader bound e [] = .ok (e, []) := by
  cases bound <;> rfl

theorem postfixLoop_follows {k : Nat} (h : Mirrors rounds n inner reader) (bound : List Token) (e : Expr)
    (hp : Ready rounds n p) (hbound : p.remaining.length ≤ bound.length) (hk : p.remaining.length < k) :
    Follows 0 p (loop (postfixRound rounds inner) k e p)
      (Reader.postfixFrom reader bound e p.remaining) := by
  induction k generalizing bound e p with
  | zero => exact absurd hk (Nat.not_lt_zero _)
  | succ k ih =>
    rw [loop_succ]
    rcases hts : p.remaining with _ | ⟨⟨kind, position⟩, rest⟩
    · rw [postfixRound_end _ hts, postfixFrom_end]
      exact .pure hp.within hts e
    by_cases hmark : kind ∈ Reader.postfixMarks
    · rw [hts] at hbound
      have hpos : 0 < bound.length := Nat.lt_of_lt_of_le (Nat.succ_pos _) hbound
      obtain ⟨token, bound, rfl⟩ := List.exists_cons_of_length_pos hpos
      have hleft : p.remaining.length ≤ bound.length + 1 := by
        rw [hts]
        exact hbound
      rcases Reader.mem_postfixMarks.1 hmark with rfl | rfl | rfl
      · rw [postfixRound_dot _ hts, Reader.postfixFrom_dot]
        refine (hp.advance hts fun q₁ h₁ hp₁ hrest => ?_).weaken
        rw [← hrest]
        refine (property_mirrors.bind hp₁ fun name q₂ h₂ hp₂ => ?_).weaken
        have hlength := (h₁.trans h₂).length_le
        exact ih bound (.member e name) hp₂ (by omega) (by omega)
      · rw [postfixRound_bracket _ hts, Reader.postfixFrom_bracket]
        refine (hp.advance hts fun q₁ h₁ hp₁ hrest => ?_).weaken
        rw [← hrest]
        refine (h.bind hp₁ fun key q₂ h₂ hp₂ => ?_).weaken
        refine ((expect_mirrors .rightBracket).bind hp₂ fun _ q₃ h₃ hp₃ => ?_).weaken
        have hlength := ((h₁.trans h₂).trans h₃).length_le
        exact ih bound (.index e key) hp₃ (by omega) (by omega)
      · rw [postfixRound_paren _ hts, Reader.postfixFrom_paren]
        refine (hp.advance hts fun q₁ h₁ hp₁ hrest => ?_).weaken
        rw [← hrest]
        refine ((arguments_mirrors h _).bind hp₁ fun args q₂ h₂ hp₂ => ?_).weaken
        have hlength := (h₁.trans h₂).length_le
        exact ih bound (.call e args) hp₂ (by omega) (by omega)
    · rw [postfixRound_other _ hts hmark, Reader.postfixFrom_other hmark]
      exact .pure hp.within hts e

theorem postfixes_mirrors (h : Mirrors rounds n inner reader) :
    Mirrors rounds n (postfixes rounds inner) (Reader.postfixes reader) := by
  intro p hp
  refine (primary_mirrors h).bind hp fun e q hq hp' => ?_
  exact postfixLoop_follows h q.remaining e hp' (Nat.le_refl _) hp'.few

theorem unary_mirrors {operand : Action Expr} {operand' : Reader Expr}
    (ho : Mirrors rounds n operand operand') (h : Mirrors rounds n inner reader) :
    Mirrors rounds n (unary rounds operand inner) (Reader.unary operand' reader) := by
  intro p hp
  have hkind : (firstKind p.remaining).bind Reader.unaryOp? =
      p.remaining.head?.bind fun token => Reader.unaryOp? token.kind := by
    cases p.remaining <;> rfl
  rw [unary, peek_bind, hkind, Reader.unary]
  cases hop : p.remaining.head?.bind fun token => Reader.unaryOp? token.kind with
  | none => exact postfixes_mirrors h p hp
  | some op =>
    obtain ⟨token, hhead, -⟩ := Option.bind_eq_some_iff.1 hop
    obtain ⟨rest, hts⟩ := List.head?_eq_some_iff.1 hhead
    rw [hts, List.tail_cons]
    refine hp.advance hts fun q₁ h₁ hp₁ hrest => ?_
    rw [← hrest]
    refine (ho.bind hp₁ fun e q₂ h₂ hp₂ => ?_).weaken
    exact .pure hp₂.within rfl (Expr.unary op e)

end Postfix

/-! ### Expressions -/

theorem expr_operand_mirror {calls : Nat} (h : n < calls) :
    Mirrors rounds n (expr rounds calls) (Reader.nestedExpr n) ∧
      Mirrors rounds n (operand rounds calls) (Reader.nestedUnary n) := by
  induction calls generalizing n with
  | zero => exact absurd h (Nat.not_lt_zero _)
  | succ calls ih =>
    rw [expr_succ, operand_succ]
    -- The limit is met while there still are calls, so the calls never run out.
    cases n with
    | zero => exact ⟨nested_mirrors_zero _, nested_mirrors_zero _⟩
    | succ n =>
      obtain ⟨hexpr, hoperand⟩ := ih (Nat.lt_of_succ_lt_succ h)
      have hunary := unary_mirrors hoperand hexpr
      exact ⟨nested_mirrors (conditional_mirrors (chains_mirror hunary Reader.levels) hexpr),
        nested_mirrors hunary⟩

theorem unaryExpr_mirrors {calls : Nat} (h : n < calls) :
    Mirrors rounds n (unaryExpr rounds calls) (Reader.unary (Reader.nestedUnary n) (Reader.nestedExpr n)) := by
  obtain ⟨hexpr, hoperand⟩ := expr_operand_mirror h
  exact unary_mirrors hoperand hexpr

theorem infixExpr_mirrors {calls : Nat} (h : n < calls) (levels : List Reader.Level) :
    Mirrors rounds n (infixExpr levels rounds calls)
      (levels.foldr Reader.chain (Reader.unary (Reader.nestedUnary n) (Reader.nestedExpr n))) :=
  chains_mirror (unaryExpr_mirrors h) levels

/-! ### Whole sources -/

theorem optionalExpr_other {ts : List Token} (hnil : firstKind ts ≠ none)
    (hsemicolon : firstKind ts ≠ some (.symbol .semicolon)) (limit : Nat) :
    Reader.optionalExpr limit ts = Reader.nestedExpr limit ts := by
  unfold Reader.optionalExpr
  split
  · exact absurd rfl hnil
  · exact absurd rfl hsemicolon
  · rfl

theorem ending_other {ts : List Token} (hnil : firstKind ts ≠ none)
    (hsemicolon : firstKind ts ≠ some (.symbol .semicolon)) (e : Expr) :
    Reader.ending e ts = TemplateExpr.unexpected ts := by
  unfold Reader.ending
  split
  · exact absurd rfl hnil
  · exact absurd rfl hsemicolon
  · exact absurd rfl hsemicolon
  · rfl

theorem optionalExpr_follows {calls : Nat} (hp : Ready rounds n p) (h : n < calls) :
    Follows 0 p (optionalExpr rounds calls p) (Reader.optionalExpr n p.remaining) := by
  rw [optionalExpr, peek_bind]
  by_cases hnil : firstKind p.remaining = none
  · have hts := Reader.firstKind_eq_none hnil
    rw [if_pos (.inr hnil), hts]
    exact .pure hp.within hts _
  by_cases hsemicolon : firstKind p.remaining = some (.symbol .semicolon)
  · obtain ⟨position, rest, hts⟩ := Reader.firstKind_eq_some hsemicolon
    rw [if_pos (.inl hsemicolon), hts]
    exact .pure hp.within hts _
  rw [if_neg (not_or.2 ⟨hsemicolon, hnil⟩), optionalExpr_other hnil hsemicolon]
  exact ((expr_operand_mirror h).1 p hp).weaken

theorem finish_outcome (e : Expr) (p : Parser) :
    (finish e p).map Prod.fst = some (if firstKind p.remaining = none then .ok e
      else TemplateExpr.unexpected p.remaining) := by
  rw [finish, peek_bind]
  split <;> rfl

theorem ending_outcome (e : Expr) (p : Parser) :
    (ending e p).map Prod.fst = some (Reader.ending e p.remaining) := by
  rw [ending, peek_bind]
  by_cases hsemicolon : firstKind p.remaining = some (.symbol .semicolon)
  · obtain ⟨position, rest, hts⟩ := Reader.firstKind_eq_some hsemicolon
    rw [if_pos hsemicolon]
    show (finish e p.forward).map Prod.fst = _
    rw [finish_outcome, remaining_forward hts, hts]
    cases rest <;> rfl
  · rw [if_neg hsemicolon, finish_outcome]
    by_cases hnil : firstKind p.remaining = none
    · rw [if_pos hnil, Reader.firstKind_eq_none hnil]
      rfl
    · rw [if_neg hnil, ending_other hnil hsemicolon]

theorem program_outcome {calls : Nat} (hp : Ready rounds n p) (h : n < calls) :
    (program rounds calls p).map Prod.fst = some (Reader.program n p.remaining) := by
  obtain ⟨q, hrun, hrest, -⟩ := optionalExpr_follows hp h
  rw [program, Reader.program]
  cases hread : Reader.optionalExpr n p.remaining with
  | error stop =>
    rw [hread] at hrun
    rw [bind_of_error hrun]
    rfl
  | ok found =>
    obtain ⟨e, rest⟩ := found
    rw [hread] at hrun hrest
    cases hrest
    rw [bind_of_ok hrun, ending_outcome]
    rfl

/-! ### All functions -/

/-- Given more rounds than there are tokens left and more calls within each other than the limit leaves levels,
a function comes to an outcome. -/
def Ends (p : Parser) (function : Nat → Nat → Action α) : Prop :=
  ∀ rounds calls, p.remaining.length < rounds → p.limit - p.depth < calls →
    ∃ outcome, function rounds calls p = some outcome

/-- The outcome is the same however many more rounds and calls there are: the function has returned in order,
has taken a token for a result, and has found and left what a reader finds and leaves. -/
def Reads (p : Parser) (function : Nat → Nat → Action α) (reader : Reader α) : Prop :=
  ∃ result q, (∀ rounds calls, p.remaining.length < rounds → p.limit - p.depth < calls →
      function rounds calls p = some (result, q)) ∧
    Orderly 1 p q result ∧ reader p.remaining = result.map fun a => (a, q.remaining)

theorem reads_of_mirrors {function : Nat → Nat → Action α} {reader : Reader α}
    (hp : p.position ≤ p.tokens.length)
    (h : ∀ rounds calls, p.limit - p.depth < calls →
      Mirrors rounds (p.limit - p.depth) (function rounds calls) reader) :
    p.Reads function reader := by
  have hfollows : ∀ rounds calls, p.remaining.length < rounds → p.limit - p.depth < calls →
      Follows 1 p (function rounds calls p) (reader p.remaining) := fun rounds calls hrounds hcalls =>
    h rounds calls hcalls p ⟨hp, hrounds, rfl⟩
  have hleast := hfollows _ _ (Nat.lt_succ_self _) (Nat.lt_succ_self _)
  obtain ⟨q, hrun, hrest, horder⟩ := hleast
  refine ⟨(reader p.remaining).map Prod.fst, q, fun rounds calls hrounds hcalls => ?_, horder.map_fst, ?_⟩
  · -- What is read does not depend on the rounds and calls there are.
    rw [← hrun]
    exact (hfollows rounds calls hrounds hcalls).unique ⟨q, hrun, hrest, horder⟩
  · cases hread : reader p.remaining with
    | error stop => rfl
    | ok found =>
      rw [hread] at hrest
      rw [hrest]
      rfl

theorem infixLoop_ends (hp : p.position ≤ p.tokens.length) (level : Reader.Level) (levels : List Reader.Level)
    (left : Expr) :
    p.Ends fun rounds calls => loop (infixRound level (infixExpr levels rounds calls)) rounds left := by
  intro rounds calls hrounds hcalls
  obtain ⟨q, hrun, -⟩ := infixLoop_follows level (infixExpr_mirrors hcalls levels) p.remaining left
    ⟨hp, hrounds, rfl⟩ (Nat.le_refl _) hrounds
  exact ⟨_, hrun⟩

theorem postfixLoop_ends (hp : p.position ≤ p.tokens.length) (e : Expr) :
    p.Ends fun rounds calls => loop (postfixRound rounds (expr rounds calls)) rounds e := by
  intro rounds calls hrounds hcalls
  obtain ⟨q, hrun, -⟩ := postfixLoop_follows (expr_operand_mirror hcalls).1 p.remaining e
    ⟨hp, hrounds, rfl⟩ (Nat.le_refl _) hrounds
  exact ⟨_, hrun⟩

theorem argumentsLoop_ends (hp : p.position ≤ p.tokens.length) (done : List Expr) :
    p.Ends fun rounds calls => loop (argumentsRound (expr rounds calls)) rounds done := by
  intro rounds calls hrounds hcalls
  obtain ⟨q, hrun, -⟩ := argumentsLoop_follows (expr_operand_mirror hcalls).1
    (⟨.symbol .leftParen, 0⟩ :: p.remaining) done.reverse ⟨hp, hrounds, rfl⟩ (Nat.lt_succ_self _) hrounds
  rw [List.reverse_reverse] at hrun
  exact returns_of_bind hrun

/-- From any place and depth and for any limit, each function of the parser returns.  It leaves the depth as it
was, on a result as on a failure, does not go back nor behind the end, and takes a token at least for a
result; and it finds what the reader of its form finds.  No loop wants to go round more often than there are
tokens left, the end among them. -/
theorem returns_in_order (p : Parser) (hp : p.position ≤ p.tokens.length) :
    let inner := Reader.nestedExpr (p.limit - p.depth)
    let access := Reader.unary (Reader.nestedUnary (p.limit - p.depth)) inner
    p.Reads expr inner ∧
      p.Reads conditionalExpr (Reader.conditional (Reader.infixes access) inner) ∧
      (∀ levels, p.Reads (infixExpr levels) (levels.foldr Reader.chain access)) ∧
      p.Reads unaryExpr access ∧
      p.Reads postfixExpr (Reader.postfixes inner) ∧
      (∀ first, p.Reads callArguments fun ts => Reader.argumentsFrom inner (first :: ts) [] ts) ∧
      p.Reads primaryExpr (Reader.primary inner) ∧
      (∀ level levels left, p.Ends fun rounds calls =>
        loop (infixRound level (infixExpr levels rounds calls)) rounds left) ∧
      (∀ e, p.Ends fun rounds calls => loop (postfixRound rounds (expr rounds calls)) rounds e) ∧
      (∀ done, p.Ends fun rounds calls => loop (argumentsRound (expr rounds calls)) rounds done) ∧
      ∀ rounds calls, p.remaining.length < rounds → p.limit - p.depth < calls →
        (program rounds calls p).map Prod.fst = some (Reader.program (p.limit - p.depth) p.remaining) := by
  intro inner access
  refine ⟨reads_of_mirrors hp fun rounds calls h => (expr_operand_mirror h).1,
    reads_of_mirrors hp fun rounds calls h =>
      conditional_mirrors (infixExpr_mirrors h Reader.levels) (expr_operand_mirror h).1,
    fun levels => reads_of_mirrors hp fun rounds calls h => infixExpr_mirrors h levels,
    reads_of_mirrors hp fun rounds calls h => unaryExpr_mirrors h,
    reads_of_mirrors hp fun rounds calls h => postfixes_mirrors (expr_operand_mirror h).1,
    fun first => reads_of_mirrors hp fun rounds calls h => arguments_mirrors (expr_operand_mirror h).1 first,
    reads_of_mirrors hp fun rounds calls h => primary_mirrors (expr_operand_mirror h).1,
    infixLoop_ends hp, postfixLoop_ends hp, argumentsLoop_ends hp, fun rounds calls hrounds hcalls => ?_⟩
  exact program_outcome ⟨hp, hrounds, rfl⟩ hcalls

theorem returns_in_order_call :
    let call : Parser := ⟨[⟨.name "f", 0⟩, ⟨.symbol .leftParen, 1⟩, ⟨.name "x", 2⟩, ⟨.symbol .comma, 3⟩,
      ⟨.symbol .rightParen, 4⟩], 0, 3, 5⟩
    let deep : Parser := ⟨[⟨.name "f", 0⟩, ⟨.symbol .leftParen, 1⟩, ⟨.symbol .minus, 2⟩, ⟨.name "x", 3⟩],
      0, 3, 5⟩
    call.position ≤ call.tokens.length ∧ deep.position ≤ deep.tokens.length ∧
      (∃ q, expr 6 3 call = some (.ok (.call (.identifier "f") [.identifier "x"]), q) ∧
        q.depth = 3 ∧ 1 ≤ q.position ∧ q.position ≤ 5) ∧
      (∃ outcome, loop (argumentsRound (expr 6 3)) 6 [] call = some outcome) ∧
      ∃ q, expr 5 3 deep = some (.error ⟨.tooDeep, [⟨.name "x", 3⟩]⟩, q) ∧ q.depth = 3 ∧ q.position ≤ 4 := by
  intro call deep
  have hcall : call.position ≤ call.tokens.length := by decide
  have hdeep : deep.position ≤ deep.tokens.length := by decide
  have hread : Reader.nestedExpr (call.limit - call.depth) call.remaining =
      .ok (.call (.identifier "f") [.identifier "x"], []) := rfl
  have hstop : Reader.nestedExpr (deep.limit - deep.depth) deep.remaining =
      .error ⟨.tooDeep, [⟨.name "x", 3⟩]⟩ := rfl
  obtain ⟨⟨result, q, hrun, horder, hfound⟩, -, -, -, -, -, -, -, -, hloop, -⟩ :=
    returns_in_order call hcall
  obtain ⟨⟨result', q', hrun', horder', hfound'⟩, -⟩ := returns_in_order deep hdeep
  rw [hread] at hfound
  rw [hstop] at hfound'
  have hresult : result = .ok (.call (.identifier "f") [.identifier "x"]) := by
    cases result with
    | error stop => cases hfound
    | ok e => exact congrArg Except.ok (congrArg Prod.fst (Except.ok.inj hfound)).symm
  have hresult' : result' = .error ⟨.tooDeep, [⟨.name "x", 3⟩]⟩ := by
    cases result' with
    | error stop =>
      cases hfound'
      rfl
    | ok e => cases hfound'
  subst hresult hresult'
  exact ⟨hcall, hdeep,
    ⟨q, hrun 6 3 (by decide) (by decide), horder.depth, horder.progress _ rfl, horder.inside⟩,
    hloop [] 6 3 (by decide) (by decide),
    ⟨q', hrun' 5 3 (by decide) (by decide), horder'.depth, horder'.inside⟩⟩

end Parser

end TemplateExpr
