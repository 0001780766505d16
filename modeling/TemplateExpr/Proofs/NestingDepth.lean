import TemplateExpr.Proofs.Lexed
import TemplateExpr.Proofs.Soundness
import TemplateExpr.Proofs.Evaluation
import TemplateExpr.Render

/-!
# Nesting bounds depth

A level of nesting costs the evaluator at most eight levels of depth: one for the test of a conditional,
one for the right operand of each of the six sorts of infix operators, and one for what stands innermost
in a unary operator, an index or a call.  So the nesting that is allowed by default never exhausts the depth.
-/

namespace TemplateExpr

/-- The levels of depth that a form takes beside those of the levels nested in it. -/
def Category.excess : Category → Nat
  | .expr => 0
  | .or => 7
  | .and => 6
  | .equality => 5
  | .relational => 4
  | .additive => 3
  | .multiplicative => 2
  | .unary => 1
  | .access => 1
  | .primary => 1

theorem Category.excess_of_tighter {c c' : Category} (h : c.tighter? = some c') :
    c'.excess ≤ c.excess := by
  cases c <;> cases h <;> decide

theorem Category.excess_of_operator {c c' : Category} {symbol : Symbol} {op : InfixOp}
    (hc : c.tighter? = some c') (hop : c.operator? symbol = some op) : c'.excess + 1 = c.excess := by
  cases c <;> cases hc <;> first | rfl | simp [Category.operator?] at hop

theorem InfixOp.depth_tree (op : InfixOp) (left right : Expr) :
    (op.tree left right).depth = max left.depth (right.depth + 1) := by
  cases op <;> rfl

mutual

-- An expression leaves no excess: its level of nesting pays for the seven of its infix operators, and for
-- one more.
theorem Derives.depth_le {c : Category} {n : Nat} {w : List Token} {e : Expr} :
    Derives c n w e → e.depth ≤ 8 * n + c.excess
  | .plain h => by
    have hor : e.depth ≤ 8 * _ + 7 := h.depth_le
    simp only [Category.excess]
    omega
  | .conditional h₁ h₂ h₃ => by
    have htest : Expr.depth _ ≤ 8 * _ + 7 := h₁.depth_le
    have hconsequent : Expr.depth _ ≤ 8 * _ + 0 := h₂.depth_le
    have halternate : Expr.depth _ ≤ 8 * _ + 0 := h₃.depth_le
    simp only [Expr.depth, Category.excess]
    omega
  | .tighter hc h => Nat.le_trans h.depth_le (Nat.add_le_add_left (Category.excess_of_tighter hc) _)
  | .operator hc hop hl hr => by
    have hleft := hl.depth_le
    have hright := hr.depth_le
    have hexcess := Category.excess_of_operator hc hop
    rw [InfixOp.depth_tree]
    omega
  | .unary _ h => by
    have hoperand : Expr.depth _ ≤ 8 * _ + 1 := h.depth_le
    simp only [Expr.depth, Category.excess]
    omega
  | .member h => h.depth_le
  | .index h hkey => by
    have hobject : Expr.depth _ ≤ 8 * _ + 1 := h.depth_le
    have hindex : Expr.depth _ ≤ 8 * _ + 0 := hkey.depth_le
    simp only [Expr.depth, Category.excess]
    omega
  | .callEmpty h => by
    have hcallee : Expr.depth _ ≤ 8 * _ + 1 := h.depth_le
    simp only [Expr.depth, Expr.argumentsDepth, Category.excess]
    omega
  | .call h harguments => by
    have hcallee : Expr.depth _ ≤ 8 * _ + 1 := h.depth_le
    have hdepth := harguments.depth_le
    simp only [Expr.depth, Category.excess]
    omega
  | .number => Nat.le_refl _
  | .string => Nat.le_refl _
  | .word _ => Nat.le_refl _
  | .identifier _ _ => Nat.le_refl _
  | .parentheses h => Nat.le_succ_of_le h.depth_le

theorem DerivesArguments.depth_le {n : Nat} {w : List Token} {es : List Expr} :
    DerivesArguments n w es → Expr.argumentsDepth es ≤ 8 * n + 1
  | .last h => by
    have hlast : Expr.depth _ ≤ 8 * _ + 0 := h.depth_le
    simp only [Expr.argumentsDepth]
    omega
  | .lastComma h => by
    have hlast : Expr.depth _ ≤ 8 * _ + 0 := h.depth_le
    simp only [Expr.argumentsDepth]
    omega
  | .more h hmore => by
    have hfirst : Expr.depth _ ≤ 8 * _ + 0 := h.depth_le
    have hrest := hmore.depth_le
    simp only [Expr.argumentsDepth]
    omega

end

theorem DerivesProgram.depth_le {n : Nat} {ts : List Token} {e : Expr} (h : DerivesProgram n ts e) :
    e.depth ≤ max 1 (8 * n) := by
  cases h with
  | empty => exact Nat.le_refl _
  | emptyClosed => exact Nat.le_refl _
  | expr h => exact Nat.le_trans h.depth_le (Nat.le_max_right 1 _)
  | exprClosed h => exact Nat.le_trans h.depth_le (Nat.le_max_right 1 _)

theorem parseWithin_derives {limit : Nat} {source : String} {e : Expr}
    (h : Expr.parseWithin limit source = .ok e) :
    ∃ ts n, tokenize source = .ok ts ∧ n ≤ limit ∧ DerivesProgram n ts e := by
  obtain ⟨ts, hts, hprogram⟩ := bind_ok h
  split at hprogram
  · rename_i e' hread
    cases hprogram
    obtain ⟨n, hn, hderives⟩ := Reader.program_sound hread
    exact ⟨ts, n, hts, hn, hderives⟩
  · cases hprogram

theorem parseWithin_depth_le {limit : Nat} {source : String} {e : Expr}
    (h : Expr.parseWithin limit source = .ok e) : e.depth ≤ max 1 (8 * limit) := by
  obtain ⟨ts, n, -, hn, hderives⟩ := parseWithin_derives h
  have hdepth := hderives.depth_le
  omega

theorem Error.kind_ne_range {error : Error} (h : error.IsGenuine) : error.kind ≠ .range := by
  rcases h.kind with kind | kind <;> simp [kind]

theorem renderTree_kind_ne_range (config : Config) (env : Value) {e : Expr} (h : e.depth ≤ maxDepth) :
    ErrorsIn (fun error => error.kind ≠ .range) (config.renderTree env e) := by
  refine ErrorsIn.map (fun error failed => ?_) Value.text
  rcases evaluate_follows config.bindings env e with same | ⟨deep, -⟩
  · exact Error.kind_ne_range (Scope.meaning_errors _ e error (same.symm.trans failed))
  · exact absurd h (Nat.not_le_of_lt deep)

/-- Trees nest at most eight levels of depth in a level of nesting, which is what the limits allow: within
the default nesting no template exhausts the depth. -/
theorem nesting_bounds_depth :
    (∀ limit source e, Expr.parseWithin limit source = .ok e → e.depth ≤ max 1 (8 * limit)) ∧
      (∀ (config : Config) env source error, config.maxNesting ≤ defaultNesting →
        config.render env source = .error error → error.kind ≠ .range) ∧
      8 * defaultNesting = maxDepth := by
  refine ⟨fun limit source e => parseWithin_depth_le, ?_, rfl⟩
  intro config env source error hnesting herror
  cases hparse : Expr.parseWithin config.maxNesting source with
  | error cause =>
    rw [Config.render, Config.parse, hparse] at herror
    cases herror
    exact ErrorKind.noConfusion
  | ok e =>
    have hdepth : e.depth ≤ maxDepth := by
      have hlimit := parseWithin_depth_le hparse
      have hmax : maxDepth = 8 * defaultNesting := rfl
      have hone : 0 < defaultNesting := by decide
      omega
    rw [Config.render, Config.parse, hparse] at herror
    exact renderTree_kind_ne_range config env hdepth error herror

theorem nesting_bounds_depth_call :
    (∃ e, Expr.parseWithin 3 "e(-e)" = .ok e ∧ e.depth = 3 ∧ e.depth ≤ max 1 (8 * 3)) ∧
      ∃ error, Config.standard.maxNesting ≤ defaultNesting ∧
        Config.standard.render .null "e(-e)" = .error error ∧ error.kind ≠ .range := by
  have tokens : tokenize "e(-e)" = .ok [⟨.name "e", 0⟩, ⟨.symbol .leftParen, 1⟩, ⟨.symbol .minus, 2⟩,
      ⟨.name "e", 3⟩, ⟨.symbol .rightParen, 4⟩] := by
    have close := @Lexed.token 4 ')' [] [] (.symbol .rightParen) _ (by decide) rfl .done
    have argument := @Lexed.token 3 'e' [] _ (.name "e") _ (by decide) rfl close
    have minus := @Lexed.token 2 '-' [] _ (.symbol .minus) _ (by decide) rfl argument
    have opening := @Lexed.token 1 '(' [] _ (.symbol .leftParen) _ (by decide) rfl minus
    exact tokenize_eq_ok_iff.2 (@Lexed.token 0 'e' [] _ (.name "e") _ (by decide) rfl opening)
  have parsed : Expr.parseWithin 3 "e(-e)" =
      .ok (.call (.identifier "e") [.unary .negate (.identifier "e")]) := by
    rw [Expr.parseWithin, tokens]
    rfl
  have failed : Config.standard.render .null "e(-e)" = .error (.notCallable (.identifier "e")) := by
    rw [Config.render, Config.parse, Expr.parseWithin, tokens]
    rfl
  have nesting : Config.standard.maxNesting ≤ defaultNesting := Nat.le_refl _
  obtain ⟨depth, kind, -⟩ := nesting_bounds_depth
  exact ⟨⟨_, parsed, rfl, depth 3 _ _ parsed⟩, _, nesting, failed, kind _ _ _ _ nesting failed⟩

end TemplateExpr
