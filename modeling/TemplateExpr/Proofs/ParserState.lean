import TemplateExpr.Proofs.Lookahead
import TemplateExpr.Proofs.Outcome
import TemplateExpr.Proofs.Parser

/-!
# What a parser leaves of its state

A function that returns in order has changed nothing but the place, which has moved on but not behind the
end.  Such functions are followed side by side with the readers: what a function makes of a parser is what
a reader makes of the tokens from the place on.
-/

namespace TemplateExpr

namespace Parser

variable {p q r : Parser} {m n rounds : Nat}

/-! ### Places -/

theorem length_remaining (p : Parser) : p.remaining.length = p.tokens.length - p.position :=
  List.length_drop

theorem position_lt {token : Token} {rest : List Token} (h : p.remaining = token :: rest) :
    p.position < p.tokens.length := by
  have hlength := p.length_remaining
  rw [h, List.length_cons] at hlength
  omega

theorem forward_of_remaining {token : Token} {rest : List Token} (h : p.remaining = token :: rest) :
    p.forward = { p with position := p.position + 1 } :=
  if_pos (position_lt h)

theorem remaining_forward {token : Token} {rest : List Token} (h : p.remaining = token :: rest) :
    p.forward.remaining = rest := by
  rw [forward_of_remaining h]
  show p.tokens.drop (p.position + 1) = rest
  rw [← List.drop_drop, List.drop_one, show p.tokens.drop p.position = token :: rest from h, List.tail_cons]

/-- A function has returned in order: only the place has changed, it has not gone back nor behind the end,
and a result has taken so many tokens at least. -/
structure Orderly (least : Nat) (p q : Parser) (result : Except Stop α) : Prop where
  tokens : q.tokens = p.tokens
  limit : q.limit = p.limit
  depth : q.depth = p.depth
  onward : p.position ≤ q.position
  inside : q.position ≤ p.tokens.length
  progress : ∀ a, result = .ok a → p.position + least ≤ q.position

/-- A parser at a token or at the end, with fewer tokens to come than there are rounds for a loop, and a
number of levels of nesting that may still come. -/
structure Ready (rounds n : Nat) (p : Parser) : Prop where
  within : p.position ≤ p.tokens.length
  few : p.remaining.length < rounds
  room : p.limit - p.depth = n

namespace Orderly

variable {result : Except Stop α} {result' : Except Stop β}

theorem refl (hp : p.position ≤ p.tokens.length) (result : Except Stop α) : Orderly 0 p p result :=
  ⟨rfl, rfl, rfl, Nat.le_refl _, hp, fun _ _ => Nat.le_refl _⟩

theorem failed {stop : Stop} (h : Orderly m p q (.error stop : Except Stop α)) :
    Orderly n p q (.error stop : Except Stop β) := by
  refine ⟨h.tokens, h.limit, h.depth, h.onward, h.inside, fun b hb => ?_⟩
  cases hb

theorem map_fst {reading : Except Stop (α × List Token)} (h : Orderly m p q reading) :
    Orderly m p q (reading.map Prod.fst) := by
  refine ⟨h.tokens, h.limit, h.depth, h.onward, h.inside, fun a ha => ?_⟩
  obtain ⟨found, hfound, -⟩ := map_ok ha
  exact h.progress found hfound

theorem mono (h : Orderly m p q result) (hle : n ≤ m) : Orderly n p q result :=
  ⟨h.tokens, h.limit, h.depth, h.onward, h.inside, fun a ha => by
    have hprogress := h.progress a ha
    omega⟩

theorem trans {a : α} (h : Orderly m p q (.ok a)) (h' : Orderly n q r result') :
    Orderly (m + n) p r result' := by
  refine ⟨h'.tokens.trans h.tokens, h'.limit.trans h.limit, h'.depth.trans h.depth,
    Nat.le_trans h.onward h'.onward, h.tokens ▸ h'.inside, fun b hb => ?_⟩
  have hfirst := h.progress a rfl
  have hthen := h'.progress b hb
  omega

theorem length_le {a : α} (h : Orderly m p q (.ok a)) :
    q.remaining.length + m ≤ p.remaining.length := by
  rw [length_remaining, length_remaining, h.tokens]
  have hprogress := h.progress a rfl
  have hinside := h.inside
  omega

theorem ready {a : α} (h : Orderly m p q (.ok a)) (hp : Ready rounds n p) : Ready rounds n q := by
  have hlength := h.length_le
  have hfew := hp.few
  refine ⟨h.tokens ▸ h.inside, by omega, ?_⟩
  rw [h.limit, h.depth]
  exact hp.room

theorem forward {token : Token} {rest : List Token} (h : p.remaining = token :: rest) (a : α) :
    Orderly 1 p p.forward (.ok a) := by
  rw [forward_of_remaining h]
  exact ⟨rfl, rfl, rfl, Nat.le_succ _, position_lt h, fun _ _ => Nat.le_refl _⟩

/-- The place is all that two outcomes can differ in, and the tokens that are left tell the place. -/
theorem unique (h : Orderly m p q result) (h' : Orderly n p r result')
    (hrest : q.remaining = r.remaining) : q = r := by
  have hlength := congrArg List.length hrest
  rw [length_remaining, length_remaining, h.tokens, h'.tokens] at hlength
  have hinside := h.inside
  have hinside' := h'.inside
  have hplace : q.position = r.position := by omega
  obtain ⟨tokens, position, depth, limit⟩ := q
  obtain ⟨tokens', position', depth', limit'⟩ := r
  obtain ⟨rfl, rfl, rfl⟩ : tokens = p.tokens ∧ limit = p.limit ∧ depth = p.depth :=
    ⟨h.tokens, h.limit, h.depth⟩
  obtain ⟨rfl, rfl, rfl⟩ : tokens' = p.tokens ∧ limit' = p.limit ∧ depth' = p.depth :=
    ⟨h'.tokens, h'.limit, h'.depth⟩
  cases hplace
  rfl

end Orderly

/-! ### Sequences -/

theorem bind_of_ok {action : Action α} {next : α → Action β} {a : α}
    (h : action p = some (.ok a, q)) : (action >>= next) p = next a q := by
  show (action p).bind _ = _
  rw [h]
  rfl

theorem bind_of_error {action : Action α} {next : α → Action β} {stop : Stop}
    (h : action p = some (.error stop, q)) : (action >>= next) p = some (.error stop, q) := by
  show (action p).bind _ = _
  rw [h]
  rfl

theorem returns_of_bind {action : Action α} {next : α → Action β} {outcome : Except Stop β × Parser}
    (h : (action >>= next) p = some outcome) : ∃ first, action p = some first := by
  obtain ⟨first, hfirst, -⟩ := Option.bind_eq_some_iff.1 h
  exact ⟨first, hfirst⟩

theorem get_bind (next : Parser → Action α) (p : Parser) :
    ((get : Action Parser) >>= next) p = next p p := rfl

theorem peek_bind (next : Option TokenKind → Action α) (p : Parser) :
    (peek >>= next) p = next (firstKind p.remaining) p := rfl

theorem loop_succ (round : α → Action (α ⊕ β)) (n : Nat) (a : α) :
    loop round (n + 1) a = round a >>= Sum.elim (loop round n) Pure.pure := by
  rw [loop]
  congr 1
  funext next
  cases next <;> rfl

/-! ### Runs beside readings -/

/-- A run returns in order, with what a reader has found, and has left of the tokens what the reader leaves. -/
def Follows (least : Nat) (p : Parser) (run : Option (Except Stop α × Parser))
    (reading : Except Stop (α × List Token)) : Prop :=
  ∃ q, run = some (reading.map Prod.fst, q) ∧ q.remaining = restOf reading ∧ Orderly least p q reading

namespace Follows

variable {run run' : Option (Except Stop α × Parser)} {reading : Except Stop (α × List Token)}

theorem pure {ts : List Token} (hp : p.position ≤ p.tokens.length) (h : p.remaining = ts) (a : α) :
    Follows 0 p ((Pure.pure a : Action α) p) (.ok (a, ts)) :=
  ⟨p, rfl, h, .refl hp _⟩

theorem fail {ts : List Token} (hp : p.position ≤ p.tokens.length) (h : p.remaining = ts)
    (cause : SyntaxCause) : Follows n p ((Parser.fail cause : Action α) p) (.error ⟨cause, ts⟩) := by
  subst h
  exact ⟨p, rfl, rfl, (Orderly.refl hp (.error _ : Except Stop α)).failed⟩

theorem unexpected {ts : List Token} (hp : p.position ≤ p.tokens.length) (h : p.remaining = ts) :
    Follows n p ((Parser.unexpected : Action α) p) (TemplateExpr.unexpected ts) := by
  subst h
  exact fail hp rfl _

theorem weaken (h : Follows m p run reading) : Follows 0 p run reading := by
  obtain ⟨q, hrun, hrest, horder⟩ := h
  exact ⟨q, hrun, hrest, horder.mono (Nat.zero_le _)⟩

theorem unique (h : Follows m p run reading) (h' : Follows n p run' reading) : run = run' := by
  obtain ⟨q, hrun, hrest, horder⟩ := h
  obtain ⟨q', hrun', hrest', horder'⟩ := h'
  rw [hrun, hrun', horder.unique horder' (hrest.trans hrest'.symm)]

theorem bind {action : Action α} {next : α → Action β}
    {read : α × List Token → Except Stop (β × List Token)} (h : Follows m p (action p) reading)
    (hn : ∀ a q, Orderly m p q (.ok a : Except Stop α) → Follows 0 q (next a q) (read (a, q.remaining))) :
    Follows m p ((action >>= next) p) (reading >>= read) := by
  obtain ⟨q, hrun, hrest, horder⟩ := h
  cases reading with
  | error stop => exact ⟨q, bind_of_error hrun, hrest, horder.failed⟩
  | ok found =>
    obtain ⟨a, rest⟩ := found
    cases hrest
    obtain ⟨q', hrun', hrest', horder'⟩ := hn a q horder.map_fst
    exact ⟨q', (bind_of_ok hrun).trans hrun', hrest', horder.trans horder'⟩

end Follows

/-- The first of the tokens is taken for what comes next. -/
theorem Ready.advance {next : Unit → Action α} {reading : Except Stop (α × List Token)} {token : Token}
    {rest : List Token} (hp : Ready rounds n p) (h : p.remaining = token :: rest)
    (hn : ∀ q, Orderly 1 p q (.ok () : Except Stop Unit) → Ready rounds n q → q.remaining = rest →
      Follows 0 q (next () q) reading) :
    Follows 1 p ((advance >>= next) p) reading := by
  have hfirst := Orderly.forward h ()
  obtain ⟨q, hrun, hrest, horder⟩ := hn p.forward hfirst (hfirst.ready hp) (remaining_forward h)
  exact ⟨q, hrun, hrest, hfirst.trans horder⟩

/-- Wherever a function is called with so many rounds and levels left, it does in order what a reader does,
and takes a token for it. -/
def Mirrors (rounds n : Nat) (action : Action α) (reader : Reader α) : Prop :=
  ∀ p, Ready rounds n p → Follows 1 p (action p) (reader p.remaining)

theorem Mirrors.bind {action : Action α} {reader : Reader α} {next : α → Action β}
    {read : α × List Token → Except Stop (β × List Token)} (h : Mirrors rounds n action reader)
    (hp : Ready rounds n p)
    (hn : ∀ a q, Orderly 1 p q (.ok a : Except Stop α) → Ready rounds n q →
      Follows 0 q (next a q) (read (a, q.remaining))) :
    Follows 1 p ((action >>= next) p) (reader p.remaining >>= read) :=
  (h p hp).bind fun a q hq => hn a q hq (hq.ready hp)

theorem expect_of_ne {symbol : Symbol} {ts : List Token} (h : firstKind ts ≠ some (.symbol symbol)) :
    Reader.expect symbol ts = .error ⟨.expected symbol (firstKind ts), ts⟩ := by
  unfold Reader.expect
  split
  · rename_i s _ _
    rw [if_neg fun hs => h (congrArg (fun s => some (TokenKind.symbol s)) hs)]
    rfl
  · rfl

theorem expect_mirrors (symbol : Symbol) : Mirrors rounds n (expect symbol) (Reader.expect symbol) := by
  intro p hp
  rw [expect, peek_bind]
  by_cases h : firstKind p.remaining = some (.symbol symbol)
  · obtain ⟨position, rest, hts⟩ := Reader.firstKind_eq_some h
    rw [if_pos h, hts, Reader.expect, if_pos rfl]
    exact ⟨p.forward, rfl, remaining_forward hts, .forward hts _⟩
  · rw [if_neg h, expect_of_ne h]
    exact .fail hp.within rfl _

/-! ### Levels of nesting -/

theorem nested_mirrors {action : Action α} {reader : Reader α} (h : Mirrors rounds n action reader) :
    Mirrors rounds (n + 1) (nested action) reader := by
  intro p hp
  have hroom := hp.room
  have hdeeper : Ready rounds n p.deeper := by
    refine ⟨hp.within, hp.few, ?_⟩
    show p.limit - (p.depth + 1) = n
    omega
  obtain ⟨q, hrun, hrest, horder⟩ := h p.deeper hdeeper
  -- A level down and one up: the function in between has left the depth as it found it.
  have hback : q.shallower.depth = p.depth := by
    show q.depth - 1 = p.depth
    rw [horder.depth]
    exact Nat.add_sub_cancel p.depth 1
  refine ⟨q.shallower, ?_, hrest,
    ⟨horder.tokens, horder.limit, hback, horder.onward, horder.inside, horder.progress⟩⟩
  rw [nested, if_neg (by omega), hrun]
  rfl

theorem nested_mirrors_zero (action : Action α) : Mirrors rounds 0 (nested action) Reader.tooDeep := by
  intro p hp
  have hroom := hp.room
  rw [nested, if_pos (by omega)]
  exact .fail hp.within rfl _

end Parser

end TemplateExpr
