import TemplateExpr.Proofs.Grammar
import TemplateExpr.Proofs.Outcome
import TemplateExpr.Proofs.ReaderLoops

/-!
# What the parser reads is derived

Every reader takes a part off the front of its tokens that derives the tree it returns, and that nests no
more levels than the reader has room for.
-/

namespace TemplateExpr

/-- The operators of a form as the readers look them up. -/
def Category.level (c : Category) : Reader.Level := fun symbol => (c.operator? symbol).map InfixOp.tree

namespace Reader

/-! ### The tables of operators -/

theorem levels_eq : levels = [Category.or, .and, .equality, .relational, .additive,
    .multiplicative].map Category.level := by
  unfold levels
  simp only [List.map_cons, List.map_nil, List.cons.injEq, and_true]
  refine ⟨?_, ?_, ?_, ?_, ?_, ?_⟩
  all_goals
    funext s
    cases s <;> rfl

theorem infixes_eq (operand : Reader Expr) :
    infixes operand = chain Category.or.level (chain Category.and.level
      (chain Category.equality.level (chain Category.relational.level
        (chain Category.additive.level (chain Category.multiplicative.level operand))))) := by
  rw [infixes, levels_eq]
  rfl

theorem unaryOp?_eq_some {kind : TokenKind} {op : UnaryOp} :
    unaryOp? kind = some op ↔ (kind, op) ∈ unaryOperators := by
  unfold unaryOp? unaryOperators
  constructor
  · intro h
    split at h
    · cases h; simp
    · cases h; simp
    · cases h; simp
    · split at h
      · rename_i ht
        cases h
        simp [ht]
      · cases h
    · cases h
  · intro h
    simp only [List.mem_cons, Prod.mk.injEq, List.not_mem_nil, or_false] at h
    obtain ⟨rfl, rfl⟩ | ⟨rfl, rfl⟩ | ⟨rfl, rfl⟩ | ⟨rfl, rfl⟩ := h <;> rfl

theorem operator?_eq_some {c : Category} {ts rest : List Token} {node : Expr → Expr → Expr}
    (h : c.level.operator? ts = some (node, rest)) :
    ∃ symbol position op, ts = ⟨.symbol symbol, position⟩ :: rest ∧ c.operator? symbol = some op ∧
      node = op.tree := by
  unfold Level.operator? at h
  split at h
  · rename_i symbol position rest'
    obtain ⟨node', hnode, he⟩ := Option.map_eq_some_iff.1 h
    obtain ⟨op, hop, rfl⟩ := Option.map_eq_some_iff.1 hnode
    cases he
    exact ⟨symbol, position, op, rfl, hop, rfl⟩
  · cases h

/-! ### Sound readers -/

/-- What a reader reads as a form, with so many levels for what is nested. -/
def Sound (c : Category) (room : Nat) (r : Reader Expr) : Prop :=
  ∀ {ts e rest}, r ts = .ok (e, rest) →
    ∃ w n, ts = w ++ rest ∧ n ≤ room ∧ Derives c n w e

variable {c c' : Category} {room : Nat} {operand inner : Reader Expr}

theorem Sound.tighter (h : Sound c' room operand) (hc : c.tighter? = some c') :
    Sound c room operand := by
  intro ts e rest hr
  obtain ⟨w, n, hts, hn, he⟩ := h hr
  exact ⟨w, n, hts, hn, .tighter hc he⟩

/-- Behind the tokens `w`, the front of `ts` completes a derivation of `e`, and `rest` is left. -/
def Completes (c : Category) (room : Nat) (w : List Token) (e : Expr) (ts rest : List Token) : Prop :=
  ∃ u n, ts = u ++ rest ∧ n ≤ room ∧ Derives c n (w ++ u) e

theorem Completes.nothing {w rest : List Token} {e : Expr} {n : Nat} (h : Derives c n w e)
    (hn : n ≤ room) : Completes c room w e rest rest :=
  ⟨[], n, rfl, hn, by rw [List.append_nil]; exact h⟩

theorem Completes.behind {w u ts rest : List Token} {e : Expr}
    (h : Completes c room (w ++ u) e ts rest) : Completes c room w e (u ++ ts) rest := by
  obtain ⟨v, n, rfl, hn, he⟩ := h
  exact ⟨u ++ v, n, (List.append_assoc u v rest).symm, hn, by rw [← List.append_assoc]; exact he⟩

-- The invariant of the loop is that the tokens read so far derive the left operand.
theorem chainFrom_sound (hc : c.tighter? = some c') (ho : Sound c' room operand)
    (bound : List Token) {left e : Expr} {ts rest w : List Token} {n : Nat}
    (hl : Derives c n w left) (hn : n ≤ room)
    (h : chainFrom c.level operand bound left ts = .ok (e, rest)) :
    Completes c room w e ts rest := by
  induction bound generalizing left ts w n with
  | nil =>
    cases h
    exact .nothing hl hn
  | cons token bound ih =>
    cases hop : c.level.operator? ts with
    | none =>
      rw [chainFrom_none hop] at h
      cases h
      exact .nothing hl hn
    | some found =>
      obtain ⟨symbol, position, op, rfl, hsymbol, hnode⟩ := operator?_eq_some hop
      rw [chainFrom_some hop, hnode] at h
      obtain ⟨⟨right, behind⟩, hright, hnext⟩ := bind_ok h
      obtain ⟨u, m, hu, hm, hr⟩ := ho hright
      have hrest := ih (.operator (p := position) hc hsymbol hl hr) (Nat.max_le.2 ⟨hn, hm⟩) hnext
      rw [hu]
      exact hrest.behind

theorem chain_sound (hc : c.tighter? = some c') (ho : Sound c' room operand) :
    Sound c room (chain c.level operand) := by
  intro ts e rest h
  rw [chain_apply] at h
  obtain ⟨⟨left, behind⟩, hleft, hnext⟩ := bind_ok h
  obtain ⟨w, n, rfl, hn, hl⟩ := ho hleft
  exact (chainFrom_sound hc ho behind (.tighter hc hl) hn hnext).behind (w := [])

theorem infixes_sound (h : Sound .unary room operand) : Sound .or room (infixes operand) := by
  rw [infixes_eq]
  refine chain_sound rfl (chain_sound rfl (chain_sound rfl (chain_sound rfl (chain_sound rfl ?_))))
  exact chain_sound rfl h

theorem conditional_sound {test branch : Reader Expr} (ht : Sound .or room test)
    (hb : Sound .expr room branch) : Sound .expr (room + 1) (conditional test branch) := by
  intro ts e rest h
  obtain ⟨⟨first, behind⟩, hfirst, hnext⟩ := bind_ok h
  dsimp only at hnext
  obtain ⟨w, n, rfl, hn, hw⟩ := ht hfirst
  split at hnext
  · rename_i question _
    obtain ⟨⟨consequent, behind₁⟩, hconsequent, hnext₁⟩ := bind_ok hnext
    obtain ⟨⟨⟨⟩, behind₂⟩, hcolon, hnext₂⟩ := bind_ok hnext₁
    obtain ⟨⟨alternate, behind₃⟩, halternate, hend⟩ := bind_ok hnext₂
    obtain ⟨u, m, rfl, hm, hu⟩ := hb hconsequent
    obtain ⟨colon, rfl⟩ := expect_eq_ok hcolon
    obtain ⟨v, k, rfl, hk, hv⟩ := hb halternate
    cases hend
    refine ⟨w ++ ⟨.symbol .question, question⟩ :: (u ++ ⟨.symbol .colon, colon⟩ :: v), _, ?_, ?_,
      .conditional hw hu hv⟩
    · simp only [List.append_assoc, List.cons_append]
    · omega
  · cases hnext
    exact ⟨w, n + 1, rfl, Nat.succ_le_succ hn, .plain hw⟩

theorem ofName_derives {name : String} {position : Nat} (h : name ≠ "typeof") :
    Derives .primary 0 [⟨.name name, position⟩] (ofName name) := by
  unfold ofName
  split
  · rename_i hname
    exact hname ▸ .word (by simp [literalWords])
  · split
    · rename_i hname
      exact hname ▸ .word (by simp [literalWords])
    · split
      · rename_i hname
        exact hname ▸ .word (by simp [literalWords])
      · split
        · rename_i hname
          exact hname ▸ .word (by simp [literalWords])
        · refine .identifier ?_ h
          simp only [literalWords, List.map_cons, List.map_nil, List.mem_cons, List.not_mem_nil]
          simp only [*, or_self, not_false_eq_true]

theorem primary_sound (hi : Sound .expr room inner) {ts rest : List Token} {e : Expr}
    (hfirst : (ts.head?.bind fun t => unaryOp? t.kind) = none)
    (h : primary inner ts = .ok (e, rest)) :
    ∃ w n, ts = w ++ rest ∧ n ≤ room ∧ Derives .primary n w e := by
  unfold primary at h
  split at h
  · cases h
    exact ⟨_, 0, rfl, room.zero_le, .number⟩
  · cases h
    exact ⟨_, 0, rfl, room.zero_le, .string⟩
  · rename_i name position rest'
    cases h
    refine ⟨_, 0, rfl, room.zero_le, ofName_derives fun hname => ?_⟩
    rw [hname] at hfirst
    cases hfirst
  · rename_i opening _
    obtain ⟨⟨e', behind⟩, he, hnext⟩ := bind_ok h
    obtain ⟨⟨⟨⟩, rest'⟩, hclose, hend⟩ := bind_ok hnext
    cases hend
    obtain ⟨w, n, rfl, hn, hw⟩ := hi he
    obtain ⟨close, rfl⟩ := expect_eq_ok hclose
    refine ⟨⟨.symbol .leftParen, opening⟩ :: (w ++ [⟨.symbol .rightParen, close⟩]), n, ?_, hn,
      .parentheses hw⟩
    simp only [List.cons_append, List.append_assoc, List.nil_append]
  · cases h

-- The reader leaves the closing parenthesis out of what it derives, since no arguments are no derivation.
theorem argumentsFrom_sound (hi : Sound .expr room inner) (bound : List Token) {done es : List Expr}
    {ts rest : List Token} (h : argumentsFrom inner bound done ts = .ok (es, rest)) :
    ∃ w position, ts = w ++ ⟨.symbol .rightParen, position⟩ :: rest ∧
      ((w = [] ∧ es = done.reverse) ∨
        ∃ n arguments, n ≤ room ∧ es = done.reverse ++ arguments ∧ DerivesArguments n w arguments) := by
  induction bound generalizing done ts with
  | nil => cases h
  | cons token bound ih =>
    by_cases hclose : firstKind ts = some (.symbol .rightParen)
    · obtain ⟨close, behind, rfl⟩ := firstKind_eq_some hclose
      cases h
      exact ⟨[], close, rfl, .inl ⟨rfl, rfl⟩⟩
    · rw [argumentsFrom_round hclose] at h
      obtain ⟨⟨e, behind⟩, he, hnext⟩ := bind_ok h
      obtain ⟨w, n, rfl, hn, hw⟩ := hi he
      simp only [argumentsBehind] at hnext
      split at hnext
      · rename_i comma _
        obtain ⟨u, close, rfl, hrest⟩ := ih hnext
        refine ⟨w ++ ⟨.symbol .comma, comma⟩ :: u, close, ?_, .inr ?_⟩
        · simp only [List.append_assoc, List.cons_append]
        · rcases hrest with ⟨rfl, rfl⟩ | ⟨m, arguments, hm, rfl, hu⟩
          · exact ⟨n, [e], hn, List.reverse_cons, .lastComma hw⟩
          · refine ⟨max n m, e :: arguments, Nat.max_le.2 ⟨hn, hm⟩, ?_, .more hw hu⟩
            rw [List.reverse_cons, List.append_assoc, List.singleton_append]
      · obtain ⟨⟨⟨⟩, behind⟩, hparen, hend⟩ := bind_ok hnext
        obtain ⟨close, rfl⟩ := expect_eq_ok hparen
        cases hend
        exact ⟨w, close, rfl, .inr ⟨n, [e], hn, List.reverse_cons, .last hw⟩⟩

theorem postfixFrom_sound (hi : Sound .expr room inner) (bound : List Token) {left e : Expr}
    {ts rest w : List Token} {n : Nat} (hl : Derives .access n w left) (hn : n ≤ room)
    (h : postfixFrom inner bound left ts = .ok (e, rest)) : Completes .access room w e ts rest := by
  induction bound generalizing left ts w n with
  | nil =>
    cases h
    exact .nothing hl hn
  | cons token bound ih =>
    unfold postfixFrom at h
    split at h
    · rename_i dot property name rest'
      exact (ih (.member (p := dot) (q := name) hl) hn h).behind
    · cases h
    · rename_i opening rest'
      obtain ⟨⟨key, behind⟩, hkey, hnext⟩ := bind_ok h
      obtain ⟨⟨⟨⟩, behind'⟩, hclose, hend⟩ := bind_ok hnext
      obtain ⟨u, m, rfl, hm, hu⟩ := hi hkey
      obtain ⟨close, rfl⟩ := expect_eq_ok hclose
      have hindex := ih (.index (p := opening) (q := close) hl hu) (Nat.max_le.2 ⟨hn, hm⟩) hend
      simpa only [List.cons_append, List.append_assoc, List.nil_append] using hindex.behind
    · rename_i opening rest'
      obtain ⟨⟨arguments, behind⟩, harguments, hend⟩ := bind_ok h
      obtain ⟨u, close, rfl, hu⟩ := argumentsFrom_sound hi _ harguments
      rcases hu with ⟨rfl, rfl⟩ | ⟨m, arguments, hm, rfl, hu⟩
      · exact (ih (.callEmpty (p := opening) (q := close) hl) hn hend).behind
      · have hcall := ih (.call (p := opening) (q := close) hl hu) (Nat.max_le.2 ⟨hn, hm⟩) hend
        simpa only [List.cons_append, List.append_assoc, List.nil_append] using hcall.behind
    · cases h
      exact .nothing hl hn

theorem postfixes_sound (hi : Sound .expr room inner) {ts rest : List Token} {e : Expr}
    (hfirst : (ts.head?.bind fun t => unaryOp? t.kind) = none)
    (h : postfixes inner ts = .ok (e, rest)) : Completes .unary room [] e ts rest := by
  obtain ⟨⟨left, behind⟩, hleft, hnext⟩ := bind_ok h
  obtain ⟨w, n, rfl, hn, hw⟩ := primary_sound hi hfirst hleft
  obtain ⟨u, m, rfl, hm, he⟩ := postfixFrom_sound hi behind (.tighter rfl hw) hn hnext
  exact ⟨w ++ u, m, (List.append_assoc w u rest).symm, hm, .tighter rfl he⟩

/-- What a reader reads as the operand of a unary operator, which is a level of its own. -/
def SoundOperand (room : Nat) (r : Reader Expr) : Prop :=
  ∀ {ts e rest}, r ts = .ok (e, rest) →
    ∃ w n, ts = w ++ rest ∧ n < room ∧ Derives .unary n w e

theorem unary_sound (ho : SoundOperand room operand) (hi : Sound .expr room inner) :
    Sound .unary room (unary operand inner) := by
  intro ts e rest h
  unfold unary at h
  split at h
  · rename_i op hop
    cases ts with
    | nil => cases hop
    | cons token ts =>
      obtain ⟨⟨e', behind⟩, he, hend⟩ := bind_ok h
      obtain ⟨w, n, hts, hn, hw⟩ := ho he
      cases hend
      exact ⟨token :: w, n + 1, congrArg (token :: ·) hts, hn, .unary (unaryOp?_eq_some.1 hop) hw⟩
  · rename_i hfirst
    exact postfixes_sound hi hfirst h

theorem nested_sound (room : Nat) :
    Sound .expr room (nestedExpr room) ∧ SoundOperand room (nestedUnary room) := by
  induction room with
  | zero =>
    constructor
    · intro ts e rest h
      cases h
    · intro ts e rest h
      cases h
  | succ room ih =>
    have hunary : Sound .unary room (unary (nestedUnary room) (nestedExpr room)) :=
      unary_sound ih.2 ih.1
    constructor
    · exact conditional_sound (infixes_sound hunary) ih.1
    · intro ts e rest h
      obtain ⟨w, n, hts, hn, hw⟩ := hunary h
      exact ⟨w, n, hts, Nat.lt_succ_of_le hn, hw⟩

theorem ending_sound {e e' : Expr} {rest : List Token} (h : ending e' rest = .ok e) :
    e' = e ∧ (rest = [] ∨ ∃ p, rest = [⟨.symbol .semicolon, p⟩]) := by
  unfold ending at h
  split at h
  · cases h
    exact ⟨rfl, .inl rfl⟩
  · rename_i p
    cases h
    exact ⟨rfl, .inr ⟨p, rfl⟩⟩
  · cases h
  · cases h

theorem program_sound {limit : Nat} {ts : List Token} {e : Expr} (h : program limit ts = .ok e) :
    ∃ n, n ≤ limit ∧ DerivesProgram n ts e := by
  obtain ⟨⟨e', rest⟩, hread, hend⟩ := bind_ok h
  obtain ⟨rfl, hrest⟩ := ending_sound hend
  unfold optionalExpr at hread
  split at hread
  · cases hread
    exact ⟨0, limit.zero_le, .empty⟩
  · cases hread
    rcases hrest with h | ⟨p, h⟩
    · cases h
    · cases h
      exact ⟨0, limit.zero_le, .emptyClosed⟩
  · obtain ⟨w, n, rfl, hn, he⟩ := (nested_sound limit).1 hread
    rcases hrest with rfl | ⟨p, rfl⟩
    · exact ⟨n, hn, by rw [List.append_nil]; exact .expr he⟩
    · exact ⟨n, hn, .exprClosed he⟩

end Reader

end TemplateExpr
