import TemplateExpr.Proofs.TokenExtent

/-!
# Texts made of tokens

A text that the scanner accepts is a sequence of tokens with layout before, between and behind them.  The
relation `Lexed` says so token by token, whatever has been scanned before; from it come the places of the
tokens, which are places between characters, each behind the one before.
-/

namespace TemplateExpr

/-- A text that begins at a position is made of these tokens and of layout. -/
inductive Lexed : Nat → List Char → List Token → Prop where
  | done {p} : Lexed p [] []
  | layout {p c rest ts} : isLayout c → Lexed (p + c.utf8Size) rest ts → Lexed p (c :: rest) ts
  | token {p c cs tail kind ts} : isLayout c = false →
    readToken c (cs ++ tail) = .ok (kind, cs.length + 1) → Lexed (p + utf8Length (c :: cs)) tail ts →
    Lexed p (c :: (cs ++ tail)) (⟨kind, p⟩ :: ts)

/-! ### The scanner -/

theorem scan_eq_ok_iff {position : Nat} {done tokens : List Token} {text : List Char} :
    scan position done text = .ok tokens ↔
      ∃ ts, tokens = done.reverse ++ ts ∧ Lexed position text ts := by
  constructor
  · intro h
    fun_induction scan position done text with
    | case1 =>
      cases h
      exact ⟨[], (List.append_nil _).symm, .done⟩
    | case2 position done c rest layout ih =>
      obtain ⟨ts, rfl, lexed⟩ := ih h
      exact ⟨ts, rfl, .layout layout lexed⟩
    | case3 => cases h
    | case4 position done c rest noLayout kind length read ih =>
      obtain ⟨cs, tail, rfl, rfl, -⟩ := readToken_found read
      have behind : (cs ++ tail).drop (cs.length + 1 - 1) = tail := List.drop_left
      have taken : (cs ++ tail).take (cs.length + 1 - 1) = cs := List.take_left
      rw [behind, taken] at h ih
      obtain ⟨ts, rfl, lexed⟩ := ih h
      refine ⟨⟨kind, position⟩ :: ts, by simp, .token (Bool.eq_false_iff.2 noLayout) read ?_⟩
      rw [utf8Length, ← Nat.add_assoc]
      exact lexed
  · rintro ⟨ts, rfl, lexed⟩
    induction lexed generalizing done with
    | done => rw [scan, List.append_nil]
    | layout hc _ ih => rw [scan, if_pos hc, ih]
    | token hc read _ ih => rw [scan_token hc read, ih, List.reverse_cons, List.append_assoc]; rfl

theorem tokenize_eq_ok_iff {source : String} {tokens : List Token} :
    tokenize source = .ok tokens ↔ Lexed 0 source.toList tokens := by
  rw [tokenize, scan_eq_ok_iff]
  constructor
  · rintro ⟨ts, rfl, lexed⟩
    exact lexed
  · exact fun lexed => ⟨tokens, rfl, lexed⟩

/-! ### Places -/

/-- Where tokens begin, and the place at which all of them end. -/
def startsTo (stop : Nat) (ts : List Token) : List Nat := ts.map Token.position ++ [stop]

namespace Lexed

variable {p stop : Nat} {text : List Char} {ts : List Token}

theorem le_start (h : Lexed p text ts) (hstop : stop = p + utf8Length text) :
    ∀ q ∈ startsTo stop ts, p ≤ q := by
  induction h with
  | done =>
    intro q hq
    rw [List.mem_singleton.1 hq, hstop]
    exact Nat.le_add_right _ _
  | layout _ _ ih =>
    rw [utf8Length] at hstop
    intro q hq
    have := ih (by omega) q hq
    omega
  | token _ _ _ ih =>
    rw [← List.cons_append, utf8Length_append] at hstop
    intro q hq
    obtain rfl | hq := List.mem_cons.1 hq
    · exact Nat.le_refl _
    · have := ih (by omega) q hq
      omega

/-- Tokens take room, so each begins behind the one before it, and all of them before the end. -/
theorem starts_increase (h : Lexed p text ts) (hstop : stop = p + utf8Length text) :
    (startsTo stop ts).Pairwise (· < ·) := by
  induction h with
  | done => exact List.pairwise_singleton _ _
  | layout _ _ ih =>
    rw [utf8Length] at hstop
    exact ih (by omega)
  | @token p c cs tail kind ts _ _ lexed ih =>
    rw [← List.cons_append, utf8Length_append] at hstop
    have hstop' : stop = p + utf8Length (c :: cs) + utf8Length tail := by omega
    refine List.pairwise_cons.2 ⟨fun q hq => ?_, ih hstop'⟩
    have behind := lexed.le_start hstop' q hq
    have room : 0 < c.utf8Size := c.utf8Size_pos
    rw [utf8Length] at behind
    show p < q
    omega

end Lexed

end TemplateExpr
