import TemplateExpr.Proofs.Completeness
import TemplateExpr.Proofs.Lookahead

/-!
# Errors at the first impossible token

When the parser fails, what it has read can still be continued to a source: a name takes the place of what is
missing, and each construct that is open has tokens that close it without another level of nesting.  The
token at which it fails is therefore the first one that makes the source impossible.
-/

namespace TemplateExpr

/-- The lists of tokens of a form with at most so many levels of nesting. -/
def Derivable (c : Category) (room : Nat) (w : List Token) : Prop := ∃ n e, n ≤ room ∧ Derives c n w e

/-- The lists of tokens between the parentheses of a call. -/
def DerivableArguments (room : Nat) (w : List Token) : Prop :=
  w = [] ∨ ∃ n es, n ≤ room ∧ DerivesArguments n w es

/-- The tokens of `ts` in front of `rest` begin a list of a certain sort. -/
def Viable (sort : List Token → Prop) (ts rest : List Token) : Prop :=
  ∃ u v, ts = u ++ rest ∧ sort (u ++ v)

namespace Viable

variable {sort sort' : List Token → Prop} {ts rest : List Token}

theorem here {v : List Token} (h : sort v) : Viable sort ts ts := ⟨[], v, rfl, h⟩

theorem behind {w : List Token} (h : Viable (fun u => sort (w ++ u)) ts rest) :
    Viable sort (w ++ ts) rest := by
  obtain ⟨u, v, rfl, huv⟩ := h
  refine ⟨w ++ u, v, (List.append_assoc w u rest).symm, ?_⟩
  rw [List.append_assoc]
  exact huv

theorem front {token : Token} (h : Viable (fun u => sort (token :: u)) ts rest) :
    Viable sort (token :: ts) rest := behind (w := [token]) h

theorem within (h : Viable sort ts rest) (hs : ∀ w, sort w → ∃ v, sort' (w ++ v)) :
    Viable sort' ts rest := by
  obtain ⟨u, v, rfl, huv⟩ := h
  obtain ⟨v', hv'⟩ := hs _ huv
  exact ⟨u, v ++ v', rfl, by rw [← List.append_assoc]; exact hv'⟩

theorem imp (h : Viable sort ts rest) (hs : ∀ w, sort w → sort' w) : Viable sort' ts rest :=
  h.within fun w hw => ⟨[], by rw [List.append_nil]; exact hs w hw⟩

end Viable

/-! ### Closure of the forms -/

namespace Derivable

variable {c c' : Category} {room : Nat} {w u v : List Token} {p q : Nat}

theorem tighter (hc : c.tighter? = some c') (h : Derivable c' room w) : Derivable c room w := by
  obtain ⟨n, e, hn, h⟩ := h
  exact ⟨n, e, hn, .tighter hc h⟩

theorem operator {symbol : Symbol} {op : InfixOp} (hc : c.tighter? = some c')
    (hop : c.operator? symbol = some op) (hw : Derivable c room w) (hu : Derivable c' room u) :
    Derivable c room (w ++ ⟨.symbol symbol, p⟩ :: u) := by
  obtain ⟨n, left, hn, hw⟩ := hw
  obtain ⟨m, right, hm, hu⟩ := hu
  exact ⟨_, _, Nat.max_le.2 ⟨hn, hm⟩, .operator hc hop hw hu⟩

theorem plain (h : Derivable .or room w) : Derivable .expr (room + 1) w := by
  obtain ⟨n, e, hn, h⟩ := h
  exact ⟨n + 1, e, Nat.succ_le_succ hn, .plain h⟩

theorem conditional (hw : Derivable .or room w) (hu : Derivable .expr room u)
    (hv : Derivable .expr room v) :
    Derivable .expr (room + 1) (w ++ ⟨.symbol .question, p⟩ :: (u ++ ⟨.symbol .colon, q⟩ :: v)) := by
  obtain ⟨n, test, hn, hw⟩ := hw
  obtain ⟨m, consequent, hm, hu⟩ := hu
  obtain ⟨k, alternate, hk, hv⟩ := hv
  exact ⟨_, _, by omega, .conditional hw hu hv⟩

theorem unary {kind : TokenKind} {op : UnaryOp} (hop : (kind, op) ∈ unaryOperators)
    (h : Derivable .unary room w) : Derivable .unary (room + 1) (⟨kind, p⟩ :: w) := by
  obtain ⟨n, e, hn, h⟩ := h
  exact ⟨n + 1, _, Nat.succ_le_succ hn, .unary hop h⟩

theorem member {s : String} (h : Derivable .access room w) :
    Derivable .access room (w ++ [⟨.symbol .dot, p⟩, ⟨.name s, q⟩]) := by
  obtain ⟨n, e, hn, h⟩ := h
  exact ⟨n, _, hn, .member h⟩

theorem index (hw : Derivable .access room w) (hu : Derivable .expr room u) :
    Derivable .access room (w ++ ⟨.symbol .leftBracket, p⟩ :: (u ++ [⟨.symbol .rightBracket, q⟩])) := by
  obtain ⟨n, e, hn, hw⟩ := hw
  obtain ⟨m, key, hm, hu⟩ := hu
  exact ⟨_, _, Nat.max_le.2 ⟨hn, hm⟩, .index hw hu⟩

theorem call (hw : Derivable .access room w) (hu : DerivableArguments room u) :
    Derivable .access room (w ++ ⟨.symbol .leftParen, p⟩ :: (u ++ [⟨.symbol .rightParen, q⟩])) := by
  obtain ⟨n, e, hn, hw⟩ := hw
  rcases hu with rfl | ⟨m, es, hm, hu⟩
  · exact ⟨n, _, hn, .callEmpty hw⟩
  · exact ⟨_, _, Nat.max_le.2 ⟨hn, hm⟩, .call hw hu⟩

theorem parentheses (h : Derivable .expr room w) :
    Derivable .primary room (⟨.symbol .leftParen, p⟩ :: (w ++ [⟨.symbol .rightParen, q⟩])) := by
  obtain ⟨n, e, hn, h⟩ := h
  exact ⟨n, e, hn, .parentheses h⟩

theorem room_pos (h : Derivable .expr room w) : ∃ room', room = room' + 1 := by
  obtain ⟨n, e, hn, h⟩ := h
  cases h with
  | plain _ => exact Nat.exists_eq_add_one.2 (by omega)
  | conditional _ _ _ => exact Nat.exists_eq_add_one.2 (by omega)
  | tighter hc _ => cases hc
  | operator hc _ _ _ => cases hc

end Derivable

theorem DerivableArguments.last {room : Nat} {w : List Token} (h : Derivable .expr room w) :
    DerivableArguments room w := by
  obtain ⟨n, e, hn, h⟩ := h
  exact .inr ⟨n, [e], hn, .last h⟩

theorem DerivableArguments.more {room p : Nat} {w u : List Token} (hw : Derivable .expr room w)
    (hu : DerivableArguments room u) : DerivableArguments room (w ++ ⟨.symbol .comma, p⟩ :: u) := by
  obtain ⟨n, e, hn, hw⟩ := hw
  rcases hu with rfl | ⟨m, es, hm, hu⟩
  · exact .inr ⟨n, [e], hn, .lastComma hw⟩
  · exact .inr ⟨_, e :: es, Nat.max_le.2 ⟨hn, hm⟩, .more hw hu⟩

/-! ### Tokens in place of what is missing -/

/-- A name, wherever an expression or a property is missing. -/
def filler : Token := ⟨.name "x", 0⟩

theorem filler_primary (room : Nat) : Derivable .primary room [filler] :=
  ⟨0, .identifier "x", room.zero_le, .identifier (by decide) (by decide)⟩

theorem filler_expr (room : Nat) : Derivable .expr (room + 1) [filler] := by
  have hunary : Derivable .unary room [filler] := .tighter rfl (.tighter rfl (filler_primary room))
  have hequality : Derivable .equality room [filler] :=
    .tighter rfl (.tighter rfl (.tighter rfl (.tighter rfl hunary)))
  exact .plain (.tighter rfl (.tighter rfl hequality))

/-- What closes a conditional behind its first branch. -/
def elseFiller : List Token := [⟨.symbol .colon, 0⟩, filler]

theorem Derivable.elseFiller {room p : Nat} {w u : List Token} (hw : Derivable .or room w)
    (hu : Derivable .expr room u) :
    Derivable .expr (room + 1) (w ++ ⟨.symbol .question, p⟩ :: (u ++ elseFiller)) := by
  -- The first branch is a level of its own, so there is room for another one.
  obtain ⟨room, rfl⟩ := hu.room_pos
  exact hw.conditional hu (filler_expr room)

namespace Reader

/-- A reader that fails only where what it has read can be continued to a list of tokens of a form. -/
def Recovers (c : Category) (room : Nat) (r : Reader Expr) : Prop :=
  ∀ ⦃ts stop⦄, r ts = .error stop → stop.cause ≠ .tooDeep → Viable (Derivable c room) ts stop.rest

variable {c c' : Category} {room : Nat} {operand inner : Reader Expr} {ts rest : List Token} {stop : Stop}

theorem Sound.derivable {r : Reader Expr} {e : Expr} (hs : Sound c room r) (h : r ts = .ok (e, rest)) :
    ∃ w, ts = w ++ rest ∧ Derivable c room w := by
  obtain ⟨w, n, hts, hn, hw⟩ := hs h
  exact ⟨w, hts, n, e, hn, hw⟩

theorem expect_error {symbol : Symbol} (h : expect symbol ts = .error stop) : stop.rest = ts := by
  unfold expect at h
  split at h
  · split at h
    · cases h
    · cases h
      rfl
  · cases h
    rfl

/-! ### Infix operators and conditionals -/

-- The invariant of the loop is that the tokens `w` read so far derive its left operand.
theorem chainFrom_recovers (hc : c.tighter? = some c') (hs : Sound c' room operand)
    (hr : Recovers c' room operand) (bound : List Token) {left : Expr} {w : List Token}
    (hl : Derivable c room w) (h : chainFrom c.level operand bound left ts = .error stop)
    (hcause : stop.cause ≠ .tooDeep) : Viable (fun u => Derivable c room (w ++ u)) ts stop.rest := by
  induction bound generalizing left ts w with
  | nil => cases h
  | cons token bound ih =>
    cases hop : c.level.operator? ts with
    | none =>
      rw [chainFrom_none hop] at h
      cases h
    | some found =>
      obtain ⟨symbol, position, op, rfl, hsymbol, hnode⟩ := operator?_eq_some hop
      rw [chainFrom_some hop] at h
      rcases bind_error h with hright | ⟨⟨right, behind⟩, hright, hnext⟩
      · exact .front ((hr hright hcause).imp fun u hu => hl.operator hc hsymbol hu)
      · obtain ⟨u, hu, huc⟩ := hs.derivable hright
        have hrest := ih (hl.operator (p := position) hc hsymbol huc) hnext
        simp only [List.append_assoc, List.cons_append] at hrest
        rw [hu]
        exact .front (.behind hrest)

theorem chain_recovers (hc : c.tighter? = some c') (hs : Sound c' room operand)
    (hr : Recovers c' room operand) : Recovers c room (chain c.level operand) := by
  intro ts stop h hcause
  rw [chain_apply] at h
  rcases bind_error h with hleft | ⟨⟨left, behind⟩, hleft, hnext⟩
  · exact (hr hleft hcause).imp fun w hw => hw.tighter hc
  · obtain ⟨w, rfl, hw⟩ := hs.derivable hleft
    exact .behind (chainFrom_recovers hc hs hr behind (hw.tighter hc) hnext hcause)

theorem conditional_recovers {test branch : Reader Expr} (ht : Sound .or room test)
    (htr : Recovers .or room test) (hb : Sound .expr room branch) (hbr : Recovers .expr room branch) :
    Recovers .expr (room + 1) (conditional test branch) := by
  intro ts stop h hcause
  rcases bind_error h with htest | ⟨⟨first, behind⟩, hfirst, hnext⟩
  · exact (htr htest hcause).imp fun w hw => hw.plain
  · obtain ⟨w, rfl, hw⟩ := ht.derivable hfirst
    dsimp only at hnext
    split at hnext
    · rcases bind_error hnext with hconsequent | ⟨⟨consequent, behind₁⟩, hconsequent, hnext₁⟩
      · have hviable := hbr hconsequent hcause
        exact .behind (.front (hviable.within fun u hu => ⟨elseFiller, hw.elseFiller hu⟩))
      · obtain ⟨u, rfl, hu⟩ := hb.derivable hconsequent
        rcases bind_error hnext₁ with hcolon | ⟨⟨⟨⟩, behind₂⟩, hcolon, hnext₂⟩
        · rw [expect_error hcolon]
          exact .behind (.front (.behind (.here (hw.elseFiller hu))))
        · obtain ⟨colon, rfl⟩ := expect_eq_ok hcolon
          rcases bind_error hnext₂ with halternate | ⟨read, _, hend⟩
          · have hviable := hbr halternate hcause
            exact .behind (.front (.behind (.front (hviable.imp fun v hv => hw.conditional hu hv))))
          · cases hend
    · cases hnext

/-! ### Primary and postfix expressions -/

theorem primary_recovers (hi : Sound .expr room inner) (hir : Recovers .expr room inner) :
    Recovers .primary room (primary inner) := by
  intro ts stop h hcause
  unfold primary at h
  split at h
  · cases h
  · cases h
  · cases h
  · rcases bind_error h with he | ⟨⟨e, behind⟩, he, hnext⟩
    · have hviable := hir he hcause
      exact .front (hviable.within fun u hu => ⟨[⟨.symbol .rightParen, 0⟩], hu.parentheses⟩)
    · obtain ⟨u, rfl, hu⟩ := hi.derivable he
      rcases bind_error hnext with hclose | ⟨read, _, hend⟩
      · rw [expect_error hclose]
        exact .front (.behind (.here (v := [⟨.symbol .rightParen, 0⟩]) hu.parentheses))
      · cases hend
  · cases h
    exact .here (filler_primary room)

theorem argumentsFrom_recovers (hi : Sound .expr room inner) (hir : Recovers .expr room inner)
    (bound : List Token) {done : List Expr} (h : argumentsFrom inner bound done ts = .error stop)
    (hcause : stop.cause ≠ .tooDeep) : Viable (DerivableArguments room) ts stop.rest := by
  induction bound generalizing done ts with
  | nil =>
    -- The reader is never out of rounds, but no arguments at all would do here as well.
    cases h
    exact .here (.inl rfl)
  | cons token bound ih =>
    by_cases hclose : firstKind ts = some (.symbol .rightParen)
    · obtain ⟨p, rest, rfl⟩ := firstKind_eq_some hclose
      cases h
    · rw [argumentsFrom_round hclose] at h
      rcases bind_error h with he | ⟨⟨e, behind⟩, he, hnext⟩
      · exact (hir he hcause).imp fun u hu => .last hu
      · obtain ⟨w, rfl, hw⟩ := hi.derivable he
        simp only [argumentsBehind] at hnext
        split at hnext
        · exact .behind (.front ((ih hnext).imp fun u hu => .more hw hu))
        · rcases bind_error hnext with hexpected | ⟨read, _, hend⟩
          · rw [expect_error hexpected]
            refine .behind (.here (v := []) ?_)
            rw [List.append_nil]
            exact .last hw
          · cases hend

theorem argumentsFrom_derivable (hi : Sound .expr room inner) {bound : List Token} {es : List Expr}
    (h : argumentsFrom inner bound [] ts = .ok (es, rest)) :
    ∃ w p, ts = w ++ ⟨.symbol .rightParen, p⟩ :: rest ∧ DerivableArguments room w := by
  obtain ⟨w, p, hts, hw⟩ := argumentsFrom_sound hi bound h
  refine ⟨w, p, hts, ?_⟩
  rcases hw with ⟨hw, -⟩ | ⟨n, arguments, hn, -, hw⟩
  · exact .inl hw
  · exact .inr ⟨n, arguments, hn, hw⟩

theorem postfixFrom_recovers (hi : Sound .expr room inner) (hir : Recovers .expr room inner)
    (bound : List Token) {left : Expr} {w : List Token} (hl : Derivable .access room w)
    (h : postfixFrom inner bound left ts = .error stop) (hcause : stop.cause ≠ .tooDeep) :
    Viable (fun u => Derivable .access room (w ++ u)) ts stop.rest := by
  induction bound generalizing left ts w with
  | nil => cases h
  | cons token bound ih =>
    unfold postfixFrom at h
    split at h
    · rename_i dot property name behind
      have hrest := ih (hl.member (p := dot) (q := name) (s := property)) h
      simp only [List.append_assoc, List.cons_append, List.nil_append] at hrest
      exact .front (.front hrest)
    · cases h
      exact .front (.here (v := [filler]) hl.member)
    · rename_i bracket behind
      rcases bind_error h with hkey | ⟨⟨key, behind₁⟩, hkey, hnext⟩
      · have hviable := hir hkey hcause
        exact .front (hviable.within fun u hu => ⟨[⟨.symbol .rightBracket, 0⟩], hl.index hu⟩)
      · obtain ⟨u, rfl, hu⟩ := hi.derivable hkey
        rcases bind_error hnext with hclose | ⟨⟨⟨⟩, behind₂⟩, hclose, hend⟩
        · rw [expect_error hclose]
          exact .front (.behind (.here (v := [⟨.symbol .rightBracket, 0⟩]) (hl.index hu)))
        · obtain ⟨close, rfl⟩ := expect_eq_ok hclose
          have hrest := ih (hl.index (p := bracket) (q := close) hu) hend
          simp only [List.append_assoc, List.cons_append, List.nil_append] at hrest
          exact .front (.behind (.front hrest))
    · rename_i paren behind
      rcases bind_error h with harguments | ⟨⟨arguments, behind₁⟩, harguments, hend⟩
      · have hviable := argumentsFrom_recovers hi hir _ harguments hcause
        exact .front (hviable.within fun u hu => ⟨[⟨.symbol .rightParen, 0⟩], hl.call hu⟩)
      · obtain ⟨u, close, rfl, hu⟩ := argumentsFrom_derivable hi harguments
        have hrest := ih (hl.call (p := paren) (q := close) hu) hend
        simp only [List.append_assoc, List.cons_append, List.nil_append] at hrest
        exact .front (.behind (.front hrest))
    · cases h

theorem postfixes_recovers (hi : Sound .expr room inner) (hir : Recovers .expr room inner)
    (hfirst : (ts.head?.bind fun t => unaryOp? t.kind) = none) (h : postfixes inner ts = .error stop)
    (hcause : stop.cause ≠ .tooDeep) : Viable (Derivable .unary room) ts stop.rest := by
  rcases bind_error h with hprimary | ⟨⟨left, behind⟩, hprimary, hnext⟩
  · have hviable := primary_recovers hi hir hprimary hcause
    exact hviable.imp fun w hw => (hw.tighter rfl : Derivable .access room w).tighter rfl
  · obtain ⟨w, n, rfl, hn, hw⟩ := primary_sound hi hfirst hprimary
    have haccess : Derivable .access room w := .tighter rfl ⟨n, left, hn, hw⟩
    exact .behind ((postfixFrom_recovers hi hir behind haccess hnext hcause).imp fun u hu => hu.tighter rfl)

/-! ### Levels of nesting -/

/-- A reader of operands of unary operators, each a level of its own, that fails only where what it has read
can be continued. -/
def RecoversOperand (room : Nat) (r : Reader Expr) : Prop :=
  ∀ ⦃ts stop⦄, r ts = .error stop → stop.cause ≠ .tooDeep →
    ∃ room', room = room' + 1 ∧ Viable (Derivable .unary room') ts stop.rest

theorem unary_recovers (ho : RecoversOperand room operand) (hi : Sound .expr room inner)
    (hir : Recovers .expr room inner) : Recovers .unary room (unary operand inner) := by
  intro ts stop h hcause
  unfold unary at h
  split at h
  · rename_i op hop
    cases ts with
    | nil => cases hop
    | cons token ts =>
      rcases bind_error h with hoperand | ⟨read, _, hend⟩
      · obtain ⟨room, rfl, hviable⟩ := ho hoperand hcause
        exact .front (hviable.imp fun u hu => hu.unary (unaryOp?_eq_some.1 hop))
      · cases hend
  · rename_i hfirst
    exact postfixes_recovers hi hir hfirst h hcause

theorem infixes_recovers (hs : Sound .unary room operand) (hr : Recovers .unary room operand) :
    Recovers .or room (infixes operand) := by
  have level : ∀ {c c' : Category} {r : Reader Expr}, c.tighter? = some c' →
      Sound c' room r ∧ Recovers c' room r →
      Sound c room (chain c.level r) ∧ Recovers c room (chain c.level r) :=
    fun hc h => ⟨chain_sound hc h.1, chain_recovers hc h.1 h.2⟩
  rw [infixes_eq]
  have hrelational := level (c := .relational) rfl (level (c := .additive) rfl
    (level (c := .multiplicative) rfl ⟨hs, hr⟩))
  exact (level (c := .or) rfl (level (c := .and) rfl (level (c := .equality) rfl hrelational))).2

theorem nested_recovers (room : Nat) :
    Recovers .expr room (nestedExpr room) ∧ RecoversOperand room (nestedUnary room) := by
  induction room with
  | zero =>
    constructor
    · intro ts stop h hcause
      cases h
      exact absurd rfl hcause
    · intro ts stop h hcause
      cases h
      exact absurd rfl hcause
  | succ room ih =>
    obtain ⟨hsound, hsoundOperand⟩ := nested_sound room
    have hus : Sound .unary room (unary (nestedUnary room) (nestedExpr room)) :=
      unary_sound hsoundOperand hsound
    have hur : Recovers .unary room (unary (nestedUnary room) (nestedExpr room)) :=
      unary_recovers ih.2 hsound ih.1
    constructor
    · exact conditional_recovers (infixes_sound hus) (infixes_recovers hus hur) hsound ih.1
    · intro ts stop h hcause
      exact ⟨room, rfl, hur h hcause⟩

/-! ### Whole sources -/

/-- The sources with at most so many levels of nesting. -/
def DerivableProgram (limit : Nat) (w : List Token) : Prop := ∃ n e, n ≤ limit ∧ DerivesProgram n w e

theorem ending_error {e : Expr} (h : ending e ts = .error stop) :
    stop.rest = ts ∨ ∃ p, ts = ⟨.symbol .semicolon, p⟩ :: stop.rest := by
  unfold ending at h
  split at h
  · cases h
  · cases h
  · rename_i p _ _
    cases h
    exact .inr ⟨p, rfl⟩
  · cases h
    exact .inl rfl

theorem ending_recovers {limit : Nat} {e : Expr} {w : List Token} (hw : DerivableProgram limit w)
    (hclosed : ∀ p, DerivableProgram limit (w ++ [⟨.symbol .semicolon, p⟩]))
    (h : ending e ts = .error stop) : Viable (DerivableProgram limit) (w ++ ts) stop.rest := by
  rcases ending_error h with hrest | ⟨p, rfl⟩
  · rw [hrest]
    refine .behind (.here (v := []) ?_)
    rw [List.append_nil]
    exact hw
  · exact .behind (.front (.here (v := []) (hclosed p)))

theorem program_recovers {limit : Nat} (h : program limit ts = .error stop)
    (hcause : stop.cause ≠ .tooDeep) : Viable (DerivableProgram limit) ts stop.rest := by
  have hempty : ∀ {ts}, ending (.literal .undefined) ts = .error stop →
      Viable (DerivableProgram limit) ts stop.rest := by
    intro ts hend
    exact ending_recovers (w := []) ⟨0, _, limit.zero_le, .empty⟩
      (fun p => ⟨0, _, limit.zero_le, .emptyClosed⟩) hend
  unfold program optionalExpr at h
  split at h
  · exact hempty h
  · exact hempty h
  · rcases bind_error h with hexpr | ⟨⟨e, behind⟩, hexpr, hend⟩
    · refine ((nested_recovers limit).1 hexpr hcause).imp fun w hw => ?_
      obtain ⟨n, e, hn, hw⟩ := hw
      exact ⟨n, e, hn, .expr hw⟩
    · obtain ⟨w, n, rfl, hn, hw⟩ := (nested_sound limit).1 hexpr
      exact ending_recovers ⟨n, e, hn, .expr hw⟩ (fun p => ⟨n, e, hn, .exprClosed hw⟩) hend

/-- Where the parser fails short of the limit on nesting, the tokens in front can be continued to a source
that it accepts within the same limit, and with the token at which it fails they cannot, whatever stands
behind it.  The position of the error is that of this token, or the end of the source. -/
theorem fails_at_first_impossible_token (limit : Nat) (ts : List Token) (stop : Stop)
    (h : program limit ts = .error stop) (hcause : stop.cause ≠ .tooDeep) :
    ∃ before, ts = before ++ stop.rest ∧
      (∀ size, (stop.toSyntaxError size).position = (ts[before.length]?.map Token.position).getD size) ∧
      (∃ after e, program limit (before ++ after) = .ok e) ∧
      ∀ token behind, stop.rest = token :: behind →
        ∀ after e, program limit (before ++ token :: after) ≠ .ok e := by
  obtain ⟨before, after, hts, n, e, hn, hprogram⟩ := program_recovers h hcause
  refine ⟨before, hts, fun size => ?_, ⟨after, e, program_complete hprogram hn⟩, ?_⟩
  · rw [hts, List.getElem?_append_right (Nat.le_refl _), Nat.sub_self, Stop.toSyntaxError]
    cases stop.rest <;> rfl
  · intro token behind hrest after e hok
    rw [hts, hrest] at h
    rw [program_stops h hrest] at hok
    cases hok

theorem fails_at_first_impossible_token_unclosed :
    let inside : List Token := [⟨.symbol .leftParen, 0⟩, ⟨.name "a", 1⟩]
    let ts : List Token := inside ++ [⟨.name "b", 3⟩]
    let stop : Stop := ⟨.expected .rightParen (some (.name "b")), [⟨.name "b", 3⟩]⟩
    program 2 ts = .error stop ∧ stop.cause ≠ .tooDeep ∧ (stop.toSyntaxError 4).position = 3 ∧
      (∃ after e, program 2 (inside ++ after) = .ok e) ∧
      ∀ after e, program 2 (ts ++ after) ≠ .ok e := by
  intro inside ts stop
  have hread : program 2 ts = .error stop := rfl
  have hcause : stop.cause ≠ .tooDeep := by decide
  obtain ⟨before, hts, hposition, hcontinued, himpossible⟩ :=
    fails_at_first_impossible_token 2 ts stop hread hcause
  have hinside : before = inside := List.append_cancel_right hts.symm
  subst before
  refine ⟨hread, hcause, (hposition 4).trans rfl, hcontinued, fun after e => ?_⟩
  exact himpossible ⟨.name "b", 3⟩ [] rfl after e

end Reader

end TemplateExpr
