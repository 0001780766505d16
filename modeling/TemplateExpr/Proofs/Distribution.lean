import TemplateExpr.Proofs.Injection

/-!
# Escaping and concatenation

Each escaper works on one character at a time, so the escaped text of a concatenation is the concatenation of
the escaped texts.  In expressions, a filter may be called on a sum of strings or on its operands.
-/

namespace TemplateExpr

theorem escapeHtml_append (s t : String) : escapeHtml (s ++ t) = escapeHtml s ++ escapeHtml t := by
  simp only [escapeHtml, String.toList_append, Html.escape_append, String.ofList_append]

theorem escapeUri_append (s t : String) : escapeUri (s ++ t) = escapeUri s ++ escapeUri t := by
  simp only [escapeUri, String.toList_append, Percent.escape_append, String.ofList_append]

namespace Escaper

theorem escape_append (escaper : Escaper) (s t : String) :
    escaper.escape (s ++ t) = escaper.escape s ++ escaper.escape t := by
  cases escaper with
  | html => exact escapeHtml_append s t
  | uri => exact escapeUri_append s t

/-- The call of an escaping filter on a tree; `filters` is the name of the filter library. -/
def callOn (escaper : Escaper) (filters : String) (e : Expr) : Expr :=
  .call (.member (.identifier filters) escaper.filter.name) [e]

end Escaper

/-! ### Meanings -/

variable {scope : Scope}

theorem meaning_callOn (escaper : Escaper) {e : Expr} {v : Value} (h : scope.meaning e = .ok v) :
    scope.meaning (escaper.callOn scope.bindings.filters e) = .ok (.string (escaper.escape v.text)) := by
  rw [Escaper.callOn, Scope.meaning, meaning_escaper, ok_bind, Scope.meanings, h]
  exact congrArg Except.ok (escaper.apply_eq v)

theorem meaning_add_strings {left right : Expr} {s t : String} (hl : scope.meaning left = .ok (.string s))
    (hr : scope.meaning right = .ok (.string t)) :
    scope.meaning (.binary .add left right) = .ok (.string (s ++ t)) := by
  rw [Scope.meaning, hl, hr]
  exact congrArg Except.ok (addValues_string s t)

/-! ### Evaluation -/

theorem evaluate_eq_of_meaning {bindings : Bindings} {env v : Value} {e : Expr}
    (h : Scope.meaning ⟨bindings, env⟩ e = .ok v) (hdeep : e.evaluate bindings env ≠ .error .tooDeep) :
    e.evaluate bindings env = .ok v := by
  rcases evaluate_follows bindings env e with hsame | ⟨-, hlimit⟩
  · exact hsame.trans h
  · exact absurd hlimit hdeep

/-- Escaping distributes over concatenation, of strings and of the expressions that have them for values: a
filter on a sum of two strings gives what the sum of the filter on each of them gives. -/
theorem escaping_distributes (bindings : Bindings) (env : Value) :
    (∀ s t, escapeHtml (s ++ t) = escapeHtml s ++ escapeHtml t) ∧
    (∀ s t, escapeUri (s ++ t) = escapeUri s ++ escapeUri t) ∧
    ∀ (escaper : Escaper) (x y : Expr) (s t : String),
      x.evaluate bindings env = .ok (.string s) → y.evaluate bindings env = .ok (.string t) →
      let whole := escaper.callOn bindings.filters (.binary .add x y)
      let parts := Expr.binary .add (escaper.callOn bindings.filters x) (escaper.callOn bindings.filters y)
      whole.evaluate bindings env ≠ .error .tooDeep → parts.evaluate bindings env ≠ .error .tooDeep →
      whole.evaluate bindings env = .ok (.string (escaper.escape (s ++ t))) ∧
        parts.evaluate bindings env = whole.evaluate bindings env := by
  refine ⟨escapeHtml_append, escapeUri_append, ?_⟩
  intro escaper x y s t hx hy whole parts hwhole hparts
  have hmx := Expr.meaning_of_evaluate hx
  have hmy := Expr.meaning_of_evaluate hy
  have hmwhole : Scope.meaning ⟨bindings, env⟩ whole = .ok (.string (escaper.escape (s ++ t))) :=
    meaning_callOn escaper (meaning_add_strings hmx hmy)
  have hmparts : Scope.meaning ⟨bindings, env⟩ parts =
      .ok (.string (escaper.escape s ++ escaper.escape t)) :=
    meaning_add_strings (meaning_callOn escaper hmx) (meaning_callOn escaper hmy)
  rw [← escaper.escape_append] at hmparts
  have hvalue := evaluate_eq_of_meaning hmwhole hwhole
  exact ⟨hvalue, (evaluate_eq_of_meaning hmparts hparts).trans hvalue.symm⟩

theorem escaping_distributes_quotes :
    let env : Value := .object (.ofPairs [("x", .string "'")])
    let x : Expr := .member (.identifier "e") "x"
    let y : Expr := .literal (.string "é")
    let whole := Escaper.uri.callOn "r" (.binary .add x y)
    let parts := Expr.binary .add (Escaper.uri.callOn "r" x) (Escaper.uri.callOn "r" y)
    x.evaluate ⟨"r", "e"⟩ env = .ok (.string "'") ∧ y.evaluate ⟨"r", "e"⟩ env = .ok (.string "é") ∧
      whole.evaluate ⟨"r", "e"⟩ env = .ok (.string "%27%C3%A9") ∧
      parts.evaluate ⟨"r", "e"⟩ env = .ok (.string "%27%C3%A9") := by
  intro env x y whole parts
  have hx : x.evaluate ⟨"r", "e"⟩ env = .ok (.string "'") := rfl
  have hy : y.evaluate ⟨"r", "e"⟩ env = .ok (.string "é") := rfl
  have hwhole : whole.evaluate ⟨"r", "e"⟩ env = .ok (.string (escapeUri ("'" ++ "é"))) := rfl
  have hparts : parts.evaluate ⟨"r", "e"⟩ env = .ok (.string (escapeUri "'" ++ escapeUri "é")) := rfl
  obtain ⟨-, -, hsame⟩ := escaping_distributes ⟨"r", "e"⟩ env
  have hroomy : ∀ {e : Expr} {v : Value}, e.evaluate ⟨"r", "e"⟩ env = .ok v →
      e.evaluate ⟨"r", "e"⟩ env ≠ .error .tooDeep := by
    intro e v hv hdeep
    rw [hv] at hdeep
    cases hdeep
  obtain ⟨hvalue, hequal⟩ := hsame .uri x y "'" "é" hx hy (hroomy hwhole) (hroomy hparts)
  have htext : Escaper.uri.escape ("'" ++ "é") = "%27%C3%A9" := by decide
  rw [htext] at hvalue
  exact ⟨hx, hy, hvalue, hequal.trans hvalue⟩

end TemplateExpr
