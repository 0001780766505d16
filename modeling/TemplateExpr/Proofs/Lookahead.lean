import TemplateExpr.Proofs.ReaderLoops

/-!
# One token of lookahead

A reader takes tokens off the front, and looks at none behind the one at which it stops.  So two runs on lists
with the same front do the same until the first of them has gone past this front: nothing that stands behind
an offending token can mend the failure.
-/

namespace TemplateExpr

/-- The tokens that an outcome leaves, from the offending one on if it is a failure. -/
def restOf : Except Stop (α × List Token) → List Token
  | .ok (_, rest) => rest
  | .error stop => stop.rest

/-- Outcomes of two runs whose tokens are the same in front of `a` and `b`: the outcomes are the same there as
well, unless the first run has only tokens of `a` left. -/
inductive Parallel (a b : List Token) :
    Except Stop (α × List Token) → Except Stop (α × List Token) → Prop where
  | read {x q} : Parallel a b (.ok (x, q ++ a)) (.ok (x, q ++ b))
  | stopped {cause q} : Parallel a b (.error ⟨cause, q ++ a⟩) (.error ⟨cause, q ++ b⟩)
  | passed {outcome outcome'} : restOf outcome <:+ a → Parallel a b outcome outcome'

theorem restOf_bind {outcome : Except Stop (α × List Token)}
    {next : α × List Token → Except Stop (β × List Token)} {ts : List Token} (h : restOf outcome <:+ ts)
    (hn : ∀ x rest, restOf (next (x, rest)) <:+ rest) : restOf (outcome >>= next) <:+ ts := by
  cases outcome with
  | error stop => exact h
  | ok read => exact (hn read.1 read.2).trans h

-- The bound on `q'` is what lets a loop go on with the rounds that it has left.
theorem Parallel.bind {a b q : List Token} {outcome outcome' : Except Stop (α × List Token)}
    {next next' : α × List Token → Except Stop (β × List Token)} (h : Parallel a b outcome outcome')
    (hleft : restOf outcome <:+ q ++ a) (hfront : ∀ x rest, restOf (next (x, rest)) <:+ rest)
    (hn : ∀ x (q' : List Token), q'.length ≤ q.length →
      Parallel a b (next (x, q' ++ a)) (next' (x, q' ++ b))) :
    Parallel a b (outcome >>= next) (outcome' >>= next') := by
  cases h with
  | @read x q' =>
    have hlength : (q' ++ a).length ≤ (q ++ a).length := hleft.length_le
    simp only [List.length_append] at hlength
    exact hn x q' (by omega)
  | stopped => exact .stopped
  | passed h => exact .passed (restOf_bind h hfront)

theorem Parallel.stopped_eq {a b : List Token} {stop : Stop} {token : Token}
    {outcome outcome' : Except Stop (α × List Token)} (h : Parallel a b outcome outcome')
    (hstop : outcome = .error stop) (hrest : stop.rest = token :: a) :
    outcome' = .error ⟨stop.cause, token :: b⟩ := by
  cases h with
  | read => cases hstop
  | @stopped cause q =>
    cases hstop
    have hq : q = [token] := List.append_cancel_right hrest
    rw [hq]
    rfl
  | passed h =>
    rw [hstop, restOf, hrest] at h
    have hle : (token :: a).length ≤ a.length := h.length_le
    rw [List.length_cons] at hle
    omega

namespace Reader

/-- A reader that only takes tokens off the front, and whose runs on lists with the same front are parallel. -/
structure Steady (r : Reader α) : Prop where
  front : ∀ ts, restOf (r ts) <:+ ts
  parallel : ∀ {a b : List Token} (q : List Token), Parallel a b (r (q ++ a)) (r (q ++ b))

/-- A reader that fails at the first token. -/
def failing (cause : Option TokenKind → SyntaxCause) : Reader α := fun ts =>
  .error ⟨cause (firstKind ts), ts⟩

namespace Steady

theorem done (x : α) : Steady fun ts => .ok (x, ts) :=
  ⟨fun ts => List.suffix_refl ts, fun _ => .read⟩

theorem failing (cause : Option TokenKind → SyntaxCause) : Steady (Reader.failing cause : Reader α) := by
  refine ⟨fun ts => List.suffix_refl ts, fun {a b} q => ?_⟩
  cases q with
  | nil => exact .passed (List.suffix_refl a)
  | cons token q => exact .stopped

theorem bind {r : Reader α} {next : α → Reader β} (hr : Steady r) (hn : ∀ x, Steady (next x)) :
    Steady fun ts => r ts >>= fun read => next read.1 read.2 := by
  have hfront : ∀ x rest, restOf (next x rest) <:+ rest := fun x => (hn x).front
  exact ⟨fun ts => restOf_bind (hr.front ts) hfront,
    fun q => (hr.parallel q).bind (hr.front _) hfront fun x q' _ => (hn x).parallel q'⟩

theorem bind_parallel {a b : List Token} {r : Reader α}
    {next next' : α × List Token → Except Stop (β × List Token)} (hr : Steady r) (q : List Token)
    (hfront : ∀ x rest, restOf (next (x, rest)) <:+ rest)
    (hn : ∀ x (q' : List Token), q'.length ≤ q.length →
      Parallel a b (next (x, q' ++ a)) (next' (x, q' ++ b))) :
    Parallel a b (r (q ++ a) >>= next) (r (q ++ b) >>= next') :=
  (hr.parallel q).bind (hr.front _) hfront hn

/-- A reader may decide by the first token how to go on, at this token or behind it. -/
theorem of_token {r : Reader α} (hnil : restOf (r []) = [])
    (h : ∀ token, ∃ next : Reader α, Steady next ∧
      ((∀ rest, r (token :: rest) = next rest) ∨ ∀ rest, r (token :: rest) = next (token :: rest))) :
    Steady r := by
  have hfront : ∀ ts, restOf (r ts) <:+ ts := by
    intro ts
    cases ts with
    | nil => simp only [hnil, List.suffix_refl]
    | cons token rest =>
      obtain ⟨next, hnext, hbehind | hat⟩ := h token
      · rw [hbehind]
        exact (hnext.front rest).trans (List.suffix_cons token rest)
      · rw [hat]
        exact hnext.front _
  refine ⟨hfront, fun {a b} q => ?_⟩
  cases q with
  | nil => exact .passed (hfront a)
  | cons token q =>
    obtain ⟨next, hnext, hbehind | hat⟩ := h token
    · rw [List.cons_append, List.cons_append, hbehind, hbehind]
      exact hnext.parallel q
    · rw [List.cons_append, List.cons_append, hat, hat]
      exact hnext.parallel (token :: q)

end Steady

/-! ### Symbols and names -/

theorem expect_steady (symbol : Symbol) : Steady (expect symbol) := by
  refine .of_token rfl fun token => ?_
  obtain ⟨kind, p⟩ := token
  by_cases hkind : kind = .symbol symbol
  · refine ⟨_, .done (), .inl fun rest => ?_⟩
    rw [hkind, expect, if_pos rfl]
  · refine ⟨_, .failing (.expected symbol), .inr fun rest => ?_⟩
    unfold expect
    split
    · rename_i s _ _ hts
      cases hts
      exact if_neg fun hs => hkind (congrArg TokenKind.symbol hs)
    · rfl

theorem property_steady : Steady property := by
  refine .of_token rfl fun token => ?_
  obtain ⟨kind, p⟩ := token
  cases kind with
  | name name => exact ⟨_, .done name, .inl fun _ => rfl⟩
  | number x => exact ⟨_, .failing .unexpected, .inr fun _ => rfl⟩
  | string s => exact ⟨_, .failing .unexpected, .inr fun _ => rfl⟩
  | symbol s => exact ⟨_, .failing .unexpected, .inr fun _ => rfl⟩

/-! ### Infix operators -/

variable {level : Level} {operand inner : Reader Expr}

theorem chainFrom_front (ho : Steady operand) (bound : List Token) (left : Expr) (ts : List Token) :
    restOf (chainFrom level operand bound left ts) <:+ ts := by
  induction bound generalizing left ts with
  | nil => exact List.suffix_refl ts
  | cons token bound ih =>
    cases ts with
    | nil => exact List.suffix_refl []
    | cons first ts =>
      rcases operator?_cons level first with hnone | ⟨node, hsome⟩
      · rw [chainFrom_none (hnone ts)]
        exact List.suffix_refl _
      · rw [chainFrom_some (hsome ts)]
        refine List.IsSuffix.trans (restOf_bind (ho.front ts) fun right rest => ?_) (List.suffix_cons first ts)
        exact ih (node left right) rest

theorem length_le_append (q a : List Token) : q.length + a.length ≤ (q ++ a).length :=
  Nat.le_of_eq List.length_append.symm

-- The bounds of the two runs differ; both have a round left for every token.
theorem chainFrom_parallel (ho : Steady operand) {a b : List Token} (bound bound' : List Token)
    (left : Expr) (q : List Token) (h : q.length + a.length ≤ bound.length)
    (h' : q.length + b.length ≤ bound'.length) :
    Parallel a b (chainFrom level operand bound left (q ++ a))
      (chainFrom level operand bound' left (q ++ b)) := by
  induction bound generalizing bound' left q with
  | nil =>
    cases q with
    | nil => exact .passed (List.suffix_refl a)
    | cons first q => simp at h
  | cons token bound ih =>
    cases q with
    | nil => exact .passed (chainFrom_front ho _ _ _)
    | cons first q =>
      cases bound' with
      | nil => simp at h'
      | cons token' bound' =>
        simp only [List.cons_append, List.length_cons] at h h' ⊢
        rcases operator?_cons level first with hnone | ⟨node, hsome⟩
        · rw [chainFrom_none (hnone _), chainFrom_none (hnone _)]
          exact .read (q := first :: q)
        · rw [chainFrom_some (hsome _), chainFrom_some (hsome _)]
          refine ho.bind_parallel q (fun right rest => chainFrom_front ho _ _ _) fun right q' hlength => ?_
          exact ih bound' _ q' (by omega) (by omega)

theorem chain_steady (ho : Steady operand) : Steady (chain level operand) := by
  refine ⟨fun ts => ?_, fun {a b} q => ?_⟩
  · rw [chain_apply]
    exact restOf_bind (ho.front ts) fun left rest => chainFrom_front ho _ _ _
  · rw [chain_apply, chain_apply]
    refine ho.bind_parallel q (fun left rest => chainFrom_front ho _ _ _) fun left q' _ => ?_
    exact chainFrom_parallel ho _ _ _ _ (length_le_append q' a) (length_le_append q' b)

theorem infixes_steady (ho : Steady operand) : Steady (infixes operand) :=
  infixes_induction ho fun _ _ => chain_steady

/-! ### Conditionals -/

/-- The branches behind a test, if a question mark follows. -/
def branches (branch : Reader Expr) (test : Expr) : Reader Expr := fun ts =>
  match ts with
  | ⟨.symbol .question, _⟩ :: rest => do
    let (consequent, rest) ← branch rest
    let (_, rest) ← expect .colon rest
    let (alternate, rest) ← branch rest
    pure (.conditional test consequent alternate, rest)
  | _ => .ok (test, ts)

theorem branches_steady {branch : Reader Expr} (hb : Steady branch) (test : Expr) :
    Steady (branches branch test) := by
  refine .of_token rfl fun token => ?_
  obtain ⟨kind, p⟩ := token
  by_cases hkind : kind = .symbol .question
  · refine ⟨_, hb.bind fun consequent => (expect_steady .colon).bind fun _ => hb.bind fun alternate =>
      .done (.conditional test consequent alternate), .inl fun rest => ?_⟩
    rw [hkind]
    rfl
  · refine ⟨_, .done test, .inr fun rest => ?_⟩
    unfold branches
    split
    · rename_i hts
      cases hts
      exact absurd rfl hkind
    · rfl

theorem conditional_steady {test branch : Reader Expr} (ht : Steady test) (hb : Steady branch) :
    Steady (conditional test branch) :=
  ht.bind fun first => branches_steady hb first

/-! ### Primary and postfix expressions -/

theorem primary_steady (hi : Steady inner) : Steady (primary inner) := by
  refine .of_token rfl fun token => ?_
  obtain ⟨kind, p⟩ := token
  cases kind with
  | name name => exact ⟨_, .done (ofName name), .inl fun _ => rfl⟩
  | number x => exact ⟨_, .done (.literal (.number x)), .inl fun _ => rfl⟩
  | string s => exact ⟨_, .done (.literal (.string s)), .inl fun _ => rfl⟩
  | symbol s =>
    by_cases hs : s = .leftParen
    · refine ⟨_, hi.bind fun e => (expect_steady .rightParen).bind fun _ => .done e, .inl fun rest => ?_⟩
      rw [hs]
      rfl
    · refine ⟨_, .failing .unexpected, .inr fun rest => ?_⟩
      unfold primary
      split
      · rename_i hts; cases hts
      · rename_i hts; cases hts
      · rename_i hts; cases hts
      · rename_i hts; cases hts; exact absurd rfl hs
      · rfl

theorem argumentsBehind_front {bound : List Token} {done : List Expr}
    (h : ∀ ts, restOf (argumentsFrom inner bound done ts) <:+ ts) (ts : List Token) :
    restOf (argumentsBehind inner bound done ts) <:+ ts := by
  unfold argumentsBehind
  split
  · exact (h _).trans (List.suffix_cons _ _)
  · exact restOf_bind ((expect_steady .rightParen).front ts) fun _ rest => List.suffix_refl rest

theorem argumentsFrom_front (hi : Steady inner) (bound : List Token) (done : List Expr)
    (ts : List Token) : restOf (argumentsFrom inner bound done ts) <:+ ts := by
  induction bound generalizing done ts with
  | nil => exact List.suffix_refl ts
  | cons token bound ih =>
    by_cases hclose : firstKind ts = some (.symbol .rightParen)
    · obtain ⟨p, rest, rfl⟩ := firstKind_eq_some hclose
      exact List.suffix_cons _ rest
    · rw [argumentsFrom_round hclose]
      exact restOf_bind (hi.front ts) fun e rest => argumentsBehind_front (ih _) rest

variable {a b : List Token}

theorem argumentsBehind_parallel {bound bound' : List Token} {done : List Expr} {q : List Token}
    (hfront : ∀ ts, restOf (argumentsFrom inner bound done ts) <:+ ts)
    (h : ∀ q' : List Token, q'.length < q.length →
      Parallel a b (argumentsFrom inner bound done (q' ++ a)) (argumentsFrom inner bound' done (q' ++ b))) :
    Parallel a b (argumentsBehind inner bound done (q ++ a))
      (argumentsBehind inner bound' done (q ++ b)) := by
  cases q with
  | nil => exact .passed (argumentsBehind_front hfront a)
  | cons first q =>
    by_cases hcomma : first.kind = .symbol .comma
    · obtain ⟨kind, p⟩ := first
      cases hcomma
      exact h q (Nat.lt_succ_self _)
    · have hother : ∀ rest, firstKind (first :: rest) ≠ some (.symbol .comma) := by
        intro rest hfirst
        exact hcomma (Option.some.inj hfirst)
      rw [List.cons_append, List.cons_append, argumentsBehind_other (hother _),
        argumentsBehind_other (hother _)]
      exact (expect_steady .rightParen).bind_parallel (first :: q) (fun _ rest => List.suffix_refl rest)
        fun _ q' _ => .read

theorem argumentsFrom_parallel (hi : Steady inner) (bound bound' : List Token) (done : List Expr)
    (q : List Token) (h : q.length + a.length < bound.length) (h' : q.length + b.length < bound'.length) :
    Parallel a b (argumentsFrom inner bound done (q ++ a)) (argumentsFrom inner bound' done (q ++ b)) := by
  induction bound generalizing bound' done q with
  | nil => cases h
  | cons token bound ih =>
    cases bound' with
    | nil => cases h'
    | cons token' bound' =>
      cases q with
      | nil => exact .passed (argumentsFrom_front hi _ _ _)
      | cons first q =>
        simp only [List.cons_append, List.length_cons] at h h' ⊢
        by_cases hclose : first.kind = .symbol .rightParen
        · obtain ⟨kind, p⟩ := first
          cases hclose
          exact .read
        · have hround : ∀ rest, firstKind (first :: rest) ≠ some (.symbol .rightParen) := by
            intro rest hfirst
            exact hclose (Option.some.inj hfirst)
          rw [argumentsFrom_round (hround _), argumentsFrom_round (hround _)]
          have hfront : ∀ done ts, restOf (argumentsFrom inner bound done ts) <:+ ts :=
            argumentsFrom_front hi bound
          refine hi.bind_parallel (first :: q) (fun e rest => argumentsBehind_front (hfront _) rest)
            fun e q' hlength => ?_
          rw [List.length_cons] at hlength
          exact argumentsBehind_parallel (hfront _) fun q'' hshorter => ih _ _ q'' (by omega) (by omega)

/-! ### Members, indexes and calls -/

theorem postfixFrom_front (hi : Steady inner) (bound : List Token) (e : Expr) (ts : List Token) :
    restOf (postfixFrom inner bound e ts) <:+ ts := by
  induction bound generalizing e ts with
  | nil => exact List.suffix_refl ts
  | cons token bound ih =>
    rcases ts with _ | ⟨⟨kind, p⟩, ts⟩
    · exact List.suffix_refl []
    · by_cases hkind : kind ∈ postfixMarks
      · refine List.IsSuffix.trans ?_ (List.suffix_cons ⟨kind, p⟩ ts)
        rcases mem_postfixMarks.1 hkind with rfl | rfl | rfl
        · rw [postfixFrom_dot]
          exact restOf_bind (property_steady.front ts) fun name rest => ih _ rest
        · rw [postfixFrom_bracket]
          refine restOf_bind (hi.front ts) fun key rest => ?_
          exact restOf_bind ((expect_steady .rightBracket).front rest) fun _ rest => ih _ rest
        · rw [postfixFrom_paren]
          exact restOf_bind (argumentsFrom_front hi _ _ ts) fun arguments rest => ih _ rest
      · rw [postfixFrom_other hkind]
        exact List.suffix_refl _

theorem postfixFrom_parallel (hi : Steady inner) (bound bound' : List Token) (e : Expr)
    (q : List Token) (h : q.length + a.length ≤ bound.length) (h' : q.length + b.length ≤ bound'.length) :
    Parallel a b (postfixFrom inner bound e (q ++ a)) (postfixFrom inner bound' e (q ++ b)) := by
  induction bound generalizing bound' e q with
  | nil =>
    cases q with
    | nil => exact .passed (List.suffix_refl a)
    | cons first q => simp at h
  | cons token bound ih =>
    rcases q with _ | ⟨⟨kind, p⟩, q⟩
    · exact .passed (postfixFrom_front hi _ _ _)
    · cases bound' with
      | nil => simp at h'
      | cons token' bound' =>
        simp only [List.cons_append, List.length_cons] at h h' ⊢
        have hfront : ∀ e rest, restOf (postfixFrom inner bound e rest) <:+ rest := postfixFrom_front hi bound
        have hnext : ∀ e (q' : List Token), q'.length ≤ q.length →
            Parallel a b (postfixFrom inner bound e (q' ++ a)) (postfixFrom inner bound' e (q' ++ b)) :=
          fun e q' hlength => ih _ _ q' (by omega) (by omega)
        by_cases hkind : kind ∈ postfixMarks
        · rcases mem_postfixMarks.1 hkind with rfl | rfl | rfl
          · rw [postfixFrom_dot, postfixFrom_dot]
            exact property_steady.bind_parallel q (fun name rest => hfront _ rest)
              fun name q' hlength => hnext _ q' hlength
          · rw [postfixFrom_bracket, postfixFrom_bracket]
            have hclose : Steady (expect .rightBracket) := expect_steady .rightBracket
            refine hi.bind_parallel q (fun key rest => restOf_bind (hclose.front rest) fun _ => hfront _)
              fun key q' hlength => ?_
            exact hclose.bind_parallel q' (fun _ rest => hfront _ rest)
              fun _ q'' hlength' => hnext _ q'' (Nat.le_trans hlength' hlength)
          · rw [postfixFrom_paren, postfixFrom_paren]
            have harguments := argumentsFrom_parallel (a := a) (b := b) hi
              (⟨.symbol .leftParen, p⟩ :: (q ++ a)) (⟨.symbol .leftParen, p⟩ :: (q ++ b)) [] q
              (Nat.lt_succ_of_le (length_le_append q a)) (Nat.lt_succ_of_le (length_le_append q b))
            exact harguments.bind (argumentsFrom_front hi _ _ _) (fun arguments rest => hfront _ rest)
              fun arguments q' hlength => hnext _ q' hlength
        · rw [postfixFrom_other hkind, postfixFrom_other hkind]
          exact .read (q := ⟨kind, p⟩ :: q)

theorem postfixes_steady (hi : Steady inner) : Steady (postfixes inner) := by
  have hp := primary_steady hi
  refine ⟨fun ts => ?_, fun {a b} q => ?_⟩
  · exact restOf_bind (hp.front ts) fun e rest => postfixFrom_front hi _ _ _
  · refine hp.bind_parallel q (fun e rest => postfixFrom_front hi _ _ _) fun e q' _ => ?_
    exact postfixFrom_parallel hi _ _ _ _ (length_le_append q' a) (length_le_append q' b)

/-! ### Levels of nesting -/

theorem unary_steady (ho : Steady operand) (hi : Steady inner) : Steady (unary operand inner) := by
  refine .of_token rfl fun token => ?_
  cases hop : unaryOp? token.kind with
  | some op =>
    refine ⟨_, ho.bind fun e => .done (.unary op e), .inl fun rest => ?_⟩
    simp only [unary, List.head?_cons, Option.bind_some, hop]
    rfl
  | none =>
    refine ⟨_, postfixes_steady hi, .inr fun rest => ?_⟩
    simp only [unary, List.head?_cons, Option.bind_some, hop]

theorem nested_steady (room : Nat) : Steady (nestedExpr room) ∧ Steady (nestedUnary room) := by
  induction room with
  | zero => exact ⟨.failing fun _ => .tooDeep, .failing fun _ => .tooDeep⟩
  | succ room ih =>
    have hunary : Steady (unary (nestedUnary room) (nestedExpr room)) := unary_steady ih.2 ih.1
    exact ⟨conditional_steady (infixes_steady hunary) ih.1, hunary⟩

/-! ### Whole sources -/

theorem optionalExpr_steady (limit : Nat) : Steady (optionalExpr limit) := by
  refine .of_token rfl fun token => ?_
  obtain ⟨kind, p⟩ := token
  by_cases hkind : kind = .symbol .semicolon
  · refine ⟨_, .done (.literal .undefined), .inr fun rest => ?_⟩
    rw [hkind]
    rfl
  · refine ⟨_, (nested_steady limit).1, .inr fun rest => ?_⟩
    unfold optionalExpr
    split
    · rename_i hts; cases hts
    · rename_i hts; cases hts; exact absurd rfl hkind
    · rfl

/-- The end of a source as a reader that leaves nothing. -/
def atEnd (e : Expr) : Reader Expr := fun ts => (ending e ts).map fun e => (e, [])

/-- The end of a source behind its semicolon. -/
def atClosedEnd (e : Expr) : Reader Expr := fun ts =>
  match ts with
  | [] => .ok (e, [])
  | _ => unexpected ts

theorem atEnd_steady (e : Expr) : Steady (atEnd e) := by
  have hclosed : Steady (atClosedEnd e) :=
    .of_token rfl fun token => ⟨_, .failing .unexpected, .inr fun rest => rfl⟩
  refine .of_token rfl fun token => ?_
  obtain ⟨kind, p⟩ := token
  by_cases hkind : kind = .symbol .semicolon
  · refine ⟨_, hclosed, .inl fun rest => ?_⟩
    rw [hkind]
    cases rest <;> rfl
  · refine ⟨_, .failing .unexpected, .inr fun rest => ?_⟩
    unfold atEnd ending
    split
    · rename_i hts; cases hts
    · rename_i hts; cases hts; exact absurd rfl hkind
    · rename_i hts; cases hts; exact absurd rfl hkind
    · rfl

theorem program_apply (limit : Nat) (ts : List Token) :
    (program limit ts).map (fun e => (e, [])) =
      optionalExpr limit ts >>= fun read => atEnd read.1 read.2 := by
  unfold program
  cases optionalExpr limit ts <;> rfl

-- Read as a whole, a source leaves nothing, so it is a reader whose rest is empty on success.
theorem program_steady (limit : Nat) :
    Steady fun ts => (program limit ts).map fun e => (e, ([] : List Token)) := by
  simp only [program_apply]
  exact (optionalExpr_steady limit).bind atEnd_steady

/-- A failure of a whole source is at one of its tokens or at the end. -/
theorem program_front {limit : Nat} {ts : List Token} {stop : Stop} (h : program limit ts = .error stop) :
    stop.rest <:+ ts := by
  have front := (program_steady limit).front ts
  rw [h] at front
  exact front

/-- A failure at a token stays when other tokens stand behind this token. -/
theorem program_stops {limit : Nat} {w a : List Token} {token : Token} {stop : Stop}
    (h : program limit (w ++ token :: a) = .error stop) (hrest : stop.rest = token :: a)
    (b : List Token) : program limit (w ++ token :: b) = .error ⟨stop.cause, token :: b⟩ := by
  have hruns : Parallel a b _ _ := (program_steady limit).parallel (w ++ [token])
  simp only [List.append_assoc, List.singleton_append] at hruns
  have hsame := hruns.stopped_eq (congrArg _ h) hrest
  cases hread : program limit (w ++ token :: b) with
  | ok e =>
    rw [hread] at hsame
    cases hsame
  | error stop' =>
    rw [hread] at hsame
    cases hsame
    rfl

end Reader

end TemplateExpr
