import TemplateExpr.Proofs.ReaderLoops
import TemplateExpr.Proofs.Soundness

/-!
# What is derived the parser reads

In front of tokens that cannot go on with it, every derivation is read whole, and its tree comes out.  A
reader that loops has read a left operand and is in the middle of its loop; that is what is proved of it,
by induction on the derivation, and the end of the loop follows from the tokens behind.
-/

namespace TemplateExpr

/-! ### First tokens -/

/-- The tokens that may begin a form. -/
def Category.Begins (c : Category) : TokenKind → Prop
  | .number _ => True
  | .string _ => True
  | .name name => c = .access ∨ c = .primary → name ≠ "typeof"
  | .symbol s => s = .leftParen ∨ c ≠ .access ∧ c ≠ .primary ∧ (s = .bang ∨ s = .minus ∨ s = .plus)

theorem Category.Begins.looser {c c' : Category} {kind : TokenKind} (h : c'.Begins kind)
    (hc : c.tighter? = some c') : c.Begins kind := by
  cases kind with
  | number x => trivial
  | string s => trivial
  | name name => cases c <;> cases hc <;> simp_all [Category.Begins]
  | symbol s => cases c <;> cases hc <;> simp_all [Category.Begins]

theorem Category.Begins.expr {kind : TokenKind} (h : Category.or.Begins kind) :
    Category.expr.Begins kind := by
  cases kind with
  | number x => trivial
  | string s => trivial
  | name name => exact fun hc => by rcases hc with hc | hc <;> cases hc
  | symbol s =>
    rcases h with h | ⟨_, _, h⟩
    · exact .inl h
    · exact .inr ⟨by decide, by decide, h⟩

theorem Category.Begins.not_closing {symbol : Symbol} (h : Category.expr.Begins (.symbol symbol)) :
    symbol ≠ .rightParen ∧ symbol ≠ .semicolon := by
  rcases h with rfl | ⟨_, _, rfl | rfl | rfl⟩
  all_goals exact ⟨by decide, by decide⟩

/-- The first token of a list is of a certain sort. -/
def BeginsWith (sort : TokenKind → Prop) (ts : List Token) : Prop :=
  ∃ token rest, ts = token :: rest ∧ sort token.kind

theorem BeginsWith.append {sort : TokenKind → Prop} {ts : List Token} (h : BeginsWith sort ts)
    (rest : List Token) : BeginsWith sort (ts ++ rest) := by
  obtain ⟨token, ts', rfl, ht⟩ := h
  exact ⟨token, ts' ++ rest, rfl, ht⟩

theorem BeginsWith.imp {sort sort' : TokenKind → Prop} {ts : List Token} (h : BeginsWith sort ts)
    (hs : ∀ {kind}, sort kind → sort' kind) : BeginsWith sort' ts := by
  obtain ⟨token, ts', rfl, ht⟩ := h
  exact ⟨token, ts', rfl, hs ht⟩

theorem begins_of_unaryOperator {kind : TokenKind} {op : UnaryOp} (h : (kind, op) ∈ unaryOperators) :
    Category.unary.Begins kind := by
  simp only [unaryOperators, List.mem_cons, Prod.mk.injEq, List.not_mem_nil, or_false] at h
  obtain ⟨rfl, rfl⟩ | ⟨rfl, rfl⟩ | ⟨rfl, rfl⟩ | ⟨rfl, rfl⟩ := h
  all_goals simp [Category.Begins]

theorem ne_typeof_of_literalWord {word : String} {value : Literal} (h : (word, value) ∈ literalWords) :
    word ≠ "typeof" := by
  simp only [literalWords, List.mem_cons, Prod.mk.injEq, List.not_mem_nil, or_false] at h
  obtain ⟨rfl, rfl⟩ | ⟨rfl, rfl⟩ | ⟨rfl, rfl⟩ | ⟨rfl, rfl⟩ := h
  all_goals decide

theorem Derives.begins {c : Category} {n : Nat} {w : List Token} {e : Expr} :
    Derives c n w e → BeginsWith c.Begins w
  | .plain h => h.begins.imp fun hk => hk.expr
  | .conditional h _ _ => (h.begins.imp fun hk => hk.expr).append _
  | .tighter hc h => h.begins.imp fun hk => hk.looser hc
  | .operator _ _ h _ => h.begins.append _
  | .unary hop _ => ⟨_, _, rfl, begins_of_unaryOperator hop⟩
  | .member h => h.begins.append _
  | .index h _ => h.begins.append _
  | .callEmpty h => h.begins.append _
  | .call h _ => h.begins.append _
  | .number => ⟨_, _, rfl, trivial⟩
  | .string => ⟨_, _, rfl, trivial⟩
  | .word h => ⟨_, _, rfl, fun _ => ne_typeof_of_literalWord h⟩
  | .identifier _ h => ⟨_, _, rfl, fun _ => h⟩
  | .parentheses _ => ⟨_, _, rfl, .inl rfl⟩

theorem DerivesArguments.begins {n : Nat} {w : List Token} {es : List Expr} :
    DerivesArguments n w es → BeginsWith Category.expr.Begins w
  | .last h => h.begins
  | .lastComma h => h.begins.append _
  | .more h _ => h.begins.append _

/-! ### Tokens behind a form -/

/-- How tightly a symbol binds what stands on its left; nothing if it cannot go on with an expression. -/
def Symbol.strength : Symbol → Nat
  | .question => 1
  | .or | .nullish => 2
  | .and => 3
  | .eq | .notEq | .strictEq | .strictNotEq => 4
  | .lt | .ltEq | .gt | .gtEq => 5
  | .plus | .minus => 6
  | .star | .slash | .percent => 7
  | .dot | .leftBracket | .leftParen => 9
  | _ => 0

/-- The weakest symbols that go on with a form. -/
def Category.strength : Category → Nat
  | .expr => 1
  | .or => 2
  | .and => 3
  | .equality => 4
  | .relational => 5
  | .additive => 6
  | .multiplicative => 7
  | .unary => 8
  | .access => 9
  | .primary => 10

/-- No token that goes on with a form stands first. -/
def Category.EndsAt (c : Category) : List Token → Prop
  | ⟨.symbol symbol, _⟩ :: _ => symbol.strength < c.strength
  | _ => True

theorem Category.strength_of_tighter {c c' : Category} (h : c.tighter? = some c') :
    c'.strength = c.strength + 1 := by
  cases c <;> cases h <;> rfl

theorem Category.strength_of_operator {c : Category} {symbol : Symbol} {op : InfixOp}
    (h : c.operator? symbol = some op) : symbol.strength = c.strength := by
  cases c <;> cases symbol <;> first | rfl | cases h

theorem Category.EndsAt.of_le {c c' : Category} {ts : List Token} (h : c.EndsAt ts)
    (hle : c.strength ≤ c'.strength) : c'.EndsAt ts := by
  unfold EndsAt at h ⊢
  split
  · exact Nat.lt_of_lt_of_le h hle
  · trivial

theorem Category.EndsAt.tighter {c c' : Category} {ts : List Token} (h : c.EndsAt ts)
    (hc : c.tighter? = some c') : c'.EndsAt ts :=
  h.of_le (by rw [strength_of_tighter hc]; exact Nat.le_succ _)

theorem Category.endsAt_of_zero (c : Category) {symbol : Symbol} {p : Nat} {ts : List Token}
    (h : symbol.strength = 0) : c.EndsAt (⟨.symbol symbol, p⟩ :: ts) := by
  show symbol.strength < c.strength
  rw [h]
  cases c <;> decide

theorem Category.EndsAt.operator?_eq_none {c : Category} {ts : List Token} (h : c.EndsAt ts) :
    c.level.operator? ts = none := by
  unfold Reader.Level.operator?
  split
  · rename_i symbol _ _
    have hsymbol : c.operator? symbol = none := by
      rw [Option.eq_none_iff_forall_ne_some]
      intro op hop
      have hstrength : symbol.strength < c.strength := h
      rw [strength_of_operator hop] at hstrength
      exact Nat.lt_irrefl _ hstrength
    rw [level, hsymbol]
    rfl
  · rfl

namespace Reader

/-! ### Complete readers -/

/-- What a reader reads in front of tokens that cannot go on with it: all that nests few enough levels. -/
def Complete (c : Category) (room : Nat) (r : Reader Expr) : Prop :=
  ∀ {n w e rest}, Derives c n w e → n ≤ room → c.EndsAt rest → r (w ++ rest) = .ok (e, rest)

variable {c c' : Category} {room : Nat} {operand inner : Reader Expr}

/-- What a loop reads is what is left to it once it has come to `left`, with a round for each token. -/
def Reaches (loop : List Token → Expr → Reader Expr) (outcome : Except Stop (Expr × List Token))
    (left : Expr) (ts : List Token) : Prop :=
  ∃ bound, ts.length ≤ bound.length ∧ outcome = loop bound left ts

theorem Reaches.round {loop : List Token → Expr → Reader Expr}
    {outcome : Except Stop (Expr × List Token)} {left left' : Expr} {ts rest : List Token}
    (h : Reaches loop outcome left ts) (hrest : rest.length < ts.length)
    (hround : ∀ token bound, loop (token :: bound) left ts = loop bound left' rest) :
    Reaches loop outcome left' rest := by
  obtain ⟨bound, hbound, houtcome⟩ := h
  cases bound with
  | nil => exact absurd (Nat.lt_of_lt_of_le hrest hbound) (Nat.not_lt_zero _)
  | cons token bound =>
    have hcovers : rest.length ≤ bound.length := Nat.le_of_lt_succ (Nat.lt_of_lt_of_le hrest hbound)
    exact ⟨bound, hcovers, houtcome.trans (hround token bound)⟩

theorem chainFrom_stop (bound : List Token) (left : Expr) {rest : List Token} (h : c.EndsAt rest) :
    chainFrom c.level operand bound left rest = .ok (left, rest) :=
  chainFrom_none h.operator?_eq_none bound left

theorem chainFrom_operator {symbol : Symbol} {op : InfixOp} (hop : c.operator? symbol = some op)
    {ts rest : List Token} {right : Expr} (hr : operand ts = .ok (right, rest))
    (token : Token) (bound : List Token) (left : Expr) (p : Nat) :
    chainFrom c.level operand (token :: bound) left (⟨.symbol symbol, p⟩ :: ts) =
      chainFrom c.level operand bound (op.tree left right) rest := by
  have hlevel : c.level.operator? (⟨.symbol symbol, p⟩ :: ts) = some (op.tree, ts) := by
    rw [Level.operator?, Category.level, hop]
    rfl
  rw [chainFrom_some hlevel, hr, ok_bind]

-- Not only a left operand: the loop must have rounds left for the operators behind it.
theorem chain_reaches {c' : Category} (ho : Complete c' room operand) {c : Category} {n : Nat}
    {w : List Token} {e : Expr} {rest : List Token} :
    Derives c n w e → c.tighter? = some c' → c.strength < Category.unary.strength → n ≤ room →
      c'.EndsAt rest → Reaches (chainFrom c.level operand) (chain c.level operand (w ++ rest)) e rest
  | .plain _, hc, _, _, _ => nomatch hc
  | .conditional _ _ _, hc, _, _, _ => nomatch hc
  | .tighter htighter h, hc, _, hn, hrest => by
    obtain rfl := Option.some.inj (hc.symm.trans htighter)
    refine ⟨rest, Nat.le_refl _, ?_⟩
    rw [chain_apply, ho h hn hrest, ok_bind]
  | @Derives.operator _ _ _ _ _ u _ _ symbol _ p htighter hop hl hr, hc, hweak, hn, hrest => by
    obtain rfl := Option.some.inj (hc.symm.trans htighter)
    have hright : operand (u ++ rest) = .ok (_, rest) := ho hr (by omega) hrest
    have hbehind : c'.EndsAt (⟨.symbol symbol, p⟩ :: (u ++ rest)) := by
      show symbol.strength < c'.strength
      rw [Category.strength_of_operator hop, Category.strength_of_tighter hc]
      exact Nat.lt_succ_self _
    have hleft := chain_reaches ho hl hc hweak (by omega) hbehind
    simp only [List.append_assoc, List.cons_append]
    refine hleft.round ?_ fun token bound => chainFrom_operator hop hright token bound _ p
    simp only [List.length_cons, List.length_append]
    omega
  | .unary _ _, _, hweak, _, _ => absurd hweak (by decide)
  | .member _, _, hweak, _, _ => absurd hweak (by decide)
  | .index _ _, _, hweak, _, _ => absurd hweak (by decide)
  | .callEmpty _, _, hweak, _, _ => absurd hweak (by decide)
  | .call _ _, _, hweak, _, _ => absurd hweak (by decide)

theorem chain_complete (hc : c.tighter? = some c') (hweak : c.strength < Category.unary.strength)
    (ho : Complete c' room operand) : Complete c room (chain c.level operand) := by
  intro n w e rest h hn hrest
  obtain ⟨bound, -, hchain⟩ := chain_reaches ho h hc hweak hn (hrest.tighter hc)
  rw [hchain, chainFrom_stop bound e hrest]

theorem infixes_complete (h : Complete .unary room operand) : Complete .or room (infixes operand) := by
  rw [infixes_eq]
  refine chain_complete rfl (by decide) (chain_complete rfl (by decide) ?_)
  refine chain_complete rfl (by decide) (chain_complete rfl (by decide) ?_)
  exact chain_complete rfl (by decide) (chain_complete rfl (by decide) h)

theorem expect_complete (symbol : Symbol) (p : Nat) (rest : List Token) :
    expect symbol (⟨.symbol symbol, p⟩ :: rest) = .ok ((), rest) := by
  rw [expect, if_pos rfl]

theorem conditional_complete {test branch : Reader Expr} (ht : Complete .or room test)
    (hb : Complete .expr room branch) : Complete .expr (room + 1) (conditional test branch) := by
  intro n w e rest h hn hrest
  cases h with
  | plain h =>
    have hor : Category.or.EndsAt rest := hrest.of_le (Nat.le_succ 1)
    have hfirst := ht h (Nat.le_of_succ_le_succ hn) hor
    simp only [conditional, hfirst, ok_bind]
    split
    · have hstrength : 1 < 1 := hrest
      exact absurd hstrength (Nat.lt_irrefl 1)
    · rfl
  | @conditional _ _ _ w u v test consequent alternate p q h₁ h₂ h₃ =>
    have hquestion : Category.or.EndsAt (⟨.symbol .question, p⟩ ::
        (u ++ ⟨.symbol .colon, q⟩ :: (v ++ rest))) := Nat.lt_succ_self 1
    have hcolon : Category.expr.EndsAt (⟨.symbol .colon, q⟩ :: (v ++ rest)) :=
      Category.endsAt_of_zero _ rfl
    have htest := ht h₁ (by omega) hquestion
    have hconsequent := hb h₂ (by omega) hcolon
    have halternate := hb h₃ (by omega) hrest
    simp only [List.append_assoc, List.cons_append]
    simp only [conditional, htest, hconsequent, halternate, expect_complete, ok_bind]
    rfl
  | tighter hc h => nomatch hc
  | operator hc hop hl hr => nomatch hc

/-! ### Primary forms -/

theorem ofName_word {word : String} {value : Literal} (h : (word, value) ∈ literalWords) :
    ofName word = .literal value := by
  simp only [literalWords, List.mem_cons, Prod.mk.injEq, List.not_mem_nil, or_false] at h
  obtain ⟨rfl, rfl⟩ | ⟨rfl, rfl⟩ | ⟨rfl, rfl⟩ | ⟨rfl, rfl⟩ := h
  all_goals rfl

theorem ofName_identifier {name : String} (h : name ∉ literalWords.map Prod.fst) :
    ofName name = .identifier name := by
  simp only [literalWords, List.map_cons, List.map_nil, List.mem_cons, List.not_mem_nil,
    or_false, not_or] at h
  obtain ⟨htrue, hfalse, hnull, hundefined⟩ := h
  rw [ofName, if_neg htrue, if_neg hfalse, if_neg hnull, if_neg hundefined]

theorem primary_complete (hi : Complete .expr room inner) {n : Nat} {w : List Token} {e : Expr}
    {rest : List Token} : Derives .primary n w e → n ≤ room →
      primary inner (w ++ rest) = .ok (e, rest)
  | .tighter hc _, _ => nomatch hc
  | .operator hc _ _ _, _ => nomatch hc
  | .number, _ => rfl
  | .string, _ => rfl
  | .word h, _ => congrArg (fun e => Except.ok (e, rest)) (ofName_word h)
  | .identifier h _, _ => congrArg (fun e => Except.ok (e, rest)) (ofName_identifier h)
  | .parentheses (q := q) h, hn => by
    have he : inner (_ ++ ⟨.symbol .rightParen, q⟩ :: rest) = _ := hi h hn (Category.endsAt_of_zero _ rfl)
    simp only [List.cons_append, List.append_assoc, List.nil_append]
    simp only [primary, he, expect_complete, ok_bind]
    rfl

/-! ### Arguments -/

theorem argument_not_closing {ts : List Token} (h : BeginsWith Category.expr.Begins ts) :
    firstKind ts ≠ some (.symbol .rightParen) := by
  intro hclose
  obtain ⟨first, behind, rfl, hfirst⟩ := h
  rw [Option.some.inj hclose] at hfirst
  exact hfirst.not_closing.1 rfl

theorem arguments_complete (hi : Complete .expr room inner) {n : Nat} {w : List Token}
    {es done : List Expr} {bound rest : List Token} {q : Nat} :
    DerivesArguments n w es → n ≤ room → w.length < bound.length →
      argumentsFrom inner bound done (w ++ ⟨.symbol .rightParen, q⟩ :: rest) =
        .ok (done.reverse ++ es, rest)
  | .last h, hn, hbound => by
    cases bound with
    | nil => cases hbound
    | cons token bound =>
      rw [argumentsFrom_round (argument_not_closing (h.begins.append _)), hi h hn (Category.endsAt_of_zero _ rfl)]
      simp only [ok_bind, argumentsBehind, expect_complete, List.reverse_cons]
      rfl
  | .lastComma (p := p) h, hn, hbound => by
    cases bound with
    | nil => cases hbound
    | cons token bound =>
      have hlast : inner (_ ++ ⟨.symbol .comma, p⟩ :: ⟨.symbol .rightParen, q⟩ :: rest) = _ :=
        hi h hn (Category.endsAt_of_zero _ rfl)
      simp only [List.append_assoc, List.cons_append, List.nil_append]
      rw [argumentsFrom_round (argument_not_closing (h.begins.append _)), hlast]
      cases bound with
      | nil => simp at hbound
      | cons token' bound =>
        simp only [ok_bind, argumentsBehind, argumentsFrom, List.reverse_cons]
  | .more (u := u) (e := e) (p := p) h hmore, hn, hbound => by
    cases bound with
    | nil => cases hbound
    | cons token bound =>
      have hfirst : inner (_ ++ ⟨.symbol .comma, p⟩ :: (u ++ ⟨.symbol .rightParen, q⟩ :: rest)) = _ :=
        hi h (by omega) (Category.endsAt_of_zero _ rfl)
      simp only [List.append_assoc, List.cons_append]
      rw [argumentsFrom_round (argument_not_closing (h.begins.append _)), hfirst]
      simp only [List.length_append, List.length_cons] at hbound
      have hrest : argumentsFrom inner bound (e :: done) (u ++ ⟨.symbol .rightParen, q⟩ :: rest) = _ :=
        arguments_complete hi hmore (by omega) (by omega)
      simp only [ok_bind, argumentsBehind, hrest, List.reverse_cons, List.append_assoc,
        List.singleton_append]

/-! ### Members, indexes and calls -/

theorem postfixFrom_stop (bound : List Token) (left : Expr) {rest : List Token}
    (h : Category.unary.EndsAt rest) : postfixFrom inner bound left rest = .ok (left, rest) := by
  cases bound with
  | nil => rfl
  | cons token bound =>
    have hafter : ∀ {symbol p rest'}, rest = ⟨.symbol symbol, p⟩ :: rest' → symbol.strength ≠ 9 := by
      rintro symbol p rest' rfl hs
      have hstrength : symbol.strength < 8 := h
      omega
    unfold postfixFrom
    split
    · exact absurd rfl (hafter rfl)
    · exact absurd rfl (hafter rfl)
    · exact absurd rfl (hafter rfl)
    · exact absurd rfl (hafter rfl)
    · rfl

theorem postfixFrom_index {ts rest : List Token} {key : Expr} {q : Nat}
    (hk : inner ts = .ok (key, ⟨.symbol .rightBracket, q⟩ :: rest)) (token : Token)
    (bound : List Token) (left : Expr) (p : Nat) :
    postfixFrom inner (token :: bound) left (⟨.symbol .leftBracket, p⟩ :: ts) =
      postfixFrom inner bound (.index left key) rest := by
  simp only [postfixFrom, hk, ok_bind, expect_complete]

theorem postfixFrom_call {ts rest : List Token} {arguments : List Expr} {p : Nat}
    (ha : argumentsFrom inner (⟨.symbol .leftParen, p⟩ :: ts) [] ts = .ok (arguments, rest))
    (token : Token) (bound : List Token) (left : Expr) :
    postfixFrom inner (token :: bound) left (⟨.symbol .leftParen, p⟩ :: ts) =
      postfixFrom inner bound (.call left arguments) rest := by
  simp only [postfixFrom, ha, ok_bind]

theorem postfixes_reaches (hi : Complete .expr room inner) (rest : List Token) {n : Nat}
    {w : List Token} {e : Expr} : Derives .access n w e → n ≤ room →
      Reaches (postfixFrom inner) (postfixes inner (w ++ rest)) e rest
  | .tighter hc h, hn => by
    cases hc
    refine ⟨rest, Nat.le_refl _, ?_⟩
    simp only [postfixes, primary_complete hi h hn, ok_bind]
  | .operator _ hop _ _, _ => by simp [Category.operator?] at hop
  | @Derives.member _ _ _ property p q h, hn => by
    have hleft := postfixes_reaches hi (⟨.symbol .dot, p⟩ :: ⟨.name property, q⟩ :: rest) h hn
    simp only [List.append_assoc, List.cons_append, List.nil_append]
    refine hleft.round ?_ fun token bound => rfl
    simp only [List.length_cons]
    omega
  | .index (u := u) (p := p) (q := q) h hkey, hn => by
    have hleft := postfixes_reaches hi
      (⟨.symbol .leftBracket, p⟩ :: (u ++ ⟨.symbol .rightBracket, q⟩ :: rest)) h (by omega)
    have hk : inner (u ++ ⟨.symbol .rightBracket, q⟩ :: rest) = _ :=
      hi hkey (by omega) (Category.endsAt_of_zero _ rfl)
    simp only [List.append_assoc, List.cons_append, List.nil_append]
    refine hleft.round ?_ fun token bound => postfixFrom_index hk token bound _ p
    simp only [List.length_cons, List.length_append]
    omega
  | .callEmpty (p := p) (q := q) h, hn => by
    have hleft := postfixes_reaches hi (⟨.symbol .leftParen, p⟩ :: ⟨.symbol .rightParen, q⟩ :: rest) h hn
    simp only [List.append_assoc, List.cons_append, List.nil_append]
    refine hleft.round ?_ fun token bound => postfixFrom_call rfl token bound _
    simp only [List.length_cons]
    omega
  | @Derives.call _ _ _ u _ arguments p q h harguments, hn => by
    have hleft := postfixes_reaches hi
      (⟨.symbol .leftParen, p⟩ :: (u ++ ⟨.symbol .rightParen, q⟩ :: rest)) h (by omega)
    have ha : argumentsFrom inner (⟨.symbol .leftParen, p⟩ :: (u ++ ⟨.symbol .rightParen, q⟩ :: rest))
        [] (u ++ ⟨.symbol .rightParen, q⟩ :: rest) = .ok (arguments, rest) := by
      refine arguments_complete hi harguments (by omega) ?_
      simp only [List.length_cons, List.length_append]
      omega
    simp only [List.append_assoc, List.cons_append, List.nil_append]
    refine hleft.round ?_ fun token bound => postfixFrom_call ha token bound _
    simp only [List.length_cons, List.length_append]
    omega

/-! ### Levels of nesting -/

/-- What a reader reads as the operand of a unary operator, which is a level of its own. -/
def CompleteOperand (room : Nat) (r : Reader Expr) : Prop :=
  ∀ {n w e rest}, Derives .unary n w e → n < room → Category.unary.EndsAt rest →
    r (w ++ rest) = .ok (e, rest)

theorem unaryOp?_eq_none {kind : TokenKind} (h : Category.access.Begins kind) : unaryOp? kind = none := by
  cases kind with
  | number x => rfl
  | string s => rfl
  | name name => exact if_neg (h (.inl rfl))
  | symbol s =>
    rcases h with rfl | ⟨h, _⟩
    · rfl
    · exact absurd rfl h

theorem unary_complete (ho : CompleteOperand room operand) (hi : Complete .expr room inner) :
    Complete .unary room (unary operand inner)
  | _, _, _, _, .operator _ hop _ _, _, _ => by simp [Category.operator?] at hop
  | _, _, _, _, .unary hop h, hn, hrest => by
    have hoperand := ho h hn hrest
    simp only [unary, List.cons_append, List.head?_cons, List.tail_cons, Option.bind_some,
      unaryOp?_eq_some.2 hop, hoperand, ok_bind]
    rfl
  | _, _, _, rest, .tighter hc h, hn, hrest => by
    cases hc
    obtain ⟨token, behind, rfl, hfirst⟩ := h.begins
    obtain ⟨bound, -, hread⟩ := postfixes_reaches hi rest h hn
    simp only [List.cons_append] at hread ⊢
    simp only [unary, List.head?_cons, Option.bind_some, unaryOp?_eq_none hfirst]
    rw [hread, postfixFrom_stop bound _ hrest]

theorem nested_complete (room : Nat) :
    Complete .expr room (nestedExpr room) ∧ CompleteOperand room (nestedUnary room) := by
  induction room with
  | zero =>
    constructor
    · intro n w e rest h hn hrest
      cases h with
      | plain h => cases hn
      | conditional h₁ h₂ h₃ => cases hn
      | tighter hc h => nomatch hc
      | operator hc hop hl hr => nomatch hc
    · intro n w e rest h hn
      cases hn
  | succ room ih =>
    have hunary : Complete .unary room (unary (nestedUnary room) (nestedExpr room)) :=
      unary_complete ih.2 ih.1
    constructor
    · exact conditional_complete (infixes_complete hunary) ih.1
    · intro n w e rest h hn hrest
      exact hunary h (Nat.le_of_lt_succ hn) hrest

/-! ### Whole sources -/

theorem optionalExpr_of_begins {limit : Nat} {ts : List Token} (h : BeginsWith Category.expr.Begins ts) :
    optionalExpr limit ts = nestedExpr limit ts := by
  obtain ⟨first, behind, rfl, hfirst⟩ := h
  unfold optionalExpr
  split
  · rename_i hts
    cases hts
  · rename_i hts
    cases hts
    exact absurd rfl hfirst.not_closing.2
  · rfl

theorem program_complete {limit n : Nat} {ts : List Token} {e : Expr} (h : DerivesProgram n ts e)
    (hn : n ≤ limit) : program limit ts = .ok e := by
  cases h with
  | empty => rfl
  | emptyClosed => rfl
  | expr h =>
    have hread : nestedExpr limit (ts ++ []) = _ := (nested_complete limit).1 h hn trivial
    rw [List.append_nil] at hread
    rw [program, optionalExpr_of_begins h.begins, hread]
    rfl
  | exprClosed h =>
    rw [program, optionalExpr_of_begins (h.begins.append _),
      (nested_complete limit).1 h hn (Category.endsAt_of_zero _ rfl)]
    rfl

/-- The parser accepts what the grammar derives within the levels of nesting, with the derived tree, and a
list of tokens derives no two trees. -/
theorem program_iff_derives (limit : Nat) (ts : List Token) :
    (∀ e, program limit ts = .ok e ↔ ∃ n, n ≤ limit ∧ DerivesProgram n ts e) ∧
      ∀ n m e e', DerivesProgram n ts e → DerivesProgram m ts e' → e = e' := by
  refine ⟨fun e => ⟨program_sound, ?_⟩, ?_⟩
  · rintro ⟨n, hn, h⟩
    exact program_complete h hn
  · intro n m e e' h h'
    have hread := program_complete h (Nat.le_max_left n m)
    have hread' := program_complete h' (Nat.le_max_right n m)
    exact Except.ok.inj (hread.symm.trans hread')

theorem program_iff_derives_minus :
    let ts : List Token := [⟨.symbol .minus, 0⟩, ⟨.name "a", 1⟩]
    let tree : Expr := .unary .negate (.identifier "a")
    program 2 ts = .ok tree ∧ ∃ n e, n ≤ 2 ∧ DerivesProgram n ts e ∧ e = tree := by
  intro ts tree
  have hname : Derives .unary 0 [⟨.name "a", 1⟩] (.identifier "a") :=
    .tighter rfl (.tighter rfl (.identifier (by decide) (by decide)))
  have hminus : Derives .unary 1 ts tree := .unary (by decide) hname
  have hexpr : Derives .expr 2 ts tree :=
    .plain (.tighter rfl (.tighter rfl (.tighter rfl (.tighter rfl (.tighter rfl (.tighter rfl hminus))))))
  obtain ⟨hiff, hunique⟩ := program_iff_derives 2 ts
  have hread : program 2 ts = .ok tree := (hiff tree).2 ⟨2, Nat.le_refl 2, .expr hexpr⟩
  obtain ⟨n, hn, h⟩ := (hiff tree).1 hread
  exact ⟨hread, n, tree, hn, h, hunique n 2 tree tree h (.expr hexpr)⟩

end Reader

end TemplateExpr
