import Mathlib.Data.List.Forall2
import TemplateExpr.Proofs.Evaluation
import TemplateExpr.Proofs.Markup
import TemplateExpr.Render

/-!
# Sums of literals and escaped values

The output of a sum of string literals and calls of the escaping filters is made of one segment for each
operand: the literal itself, or a text without markup.  So the markup of the output is that of the
literals, in every environment.
-/

namespace TemplateExpr

/-- The filters that escape. -/
inductive Escaper where
  | html
  | uri

namespace Escaper

def filter : Escaper → Filter
  | html => .html
  | uri => .uri

def escape : Escaper → String → String
  | html => escapeHtml
  | uri => escapeUri

theorem apply_eq (escaper : Escaper) (v : Value) :
    escaper.filter.apply v = .string (escaper.escape v.text) := by
  cases escaper <;> rfl

theorem escape_unmarked (escaper : Escaper) (text : String) : Unmarked (escaper.escape text).toList := by
  cases escaper with
  | html => exact escapeHtml_unmarked text
  | uri => exact escapeUri_unmarked text

end Escaper

/-- An operand of a guarded sum: a string literal, or a call of a filter that escapes. -/
inductive Operand where
  | literal (s : String)
  | escaped (escaper : Escaper) (arguments : List Expr)

namespace Operand

/-- The tree of an operand; `filters` is the name of the filter library. -/
def tree (filters : String) : Operand → Expr
  | literal s => .literal (.string s)
  | escaped escaper arguments => .call (.member (.identifier filters) escaper.filter.name) arguments

/-- The text that an operand has in the template itself. -/
def literalText : Operand → String
  | literal s => s
  | escaped _ _ => ""

/-- What an operand may write. -/
def Writes : Operand → String → Prop
  | literal s, segment => segment = s
  | escaped escaper _, segment => (∃ text, segment = escaper.escape text) ∧ Unmarked segment.toList

end Operand

/-- The sum of operands, from the left. -/
def Expr.sum (filters : String) (first : Operand) (rest : List Operand) : Expr :=
  rest.foldl (fun left operand => .binary .add left (operand.tree filters)) (first.tree filters)

def markup (s : String) : List Char := s.toList.filter isMarkup

theorem markup_join (segments : List String) : markup (String.join segments) = segments.flatMap markup := by
  rw [markup, String.toList_join, List.filter_flatMap]
  rfl

/-! ### Segments -/

/-- A value is the text of a list of operands, a segment for each. -/
def Value.Spells (v : Value) (operands : List Operand) : Prop :=
  ∃ segments, List.Forall₂ Operand.Writes operands segments ∧ v = .string (String.join segments)

variable {scope : Scope}

theorem meaning_escaper (escaper : Escaper) :
    scope.meaning (.member (.identifier scope.bindings.filters) escaper.filter.name) =
      .ok (.filter escaper.filter) := by
  have hvalue : scope.value? scope.bindings.filters = some .filters := if_pos rfl
  rw [Scope.meaning, Scope.meaning, hvalue]
  cases escaper <;> rfl

theorem meaning_operand {operand : Operand} {v : Value}
    (h : scope.meaning (operand.tree scope.bindings.filters) = .ok v) :
    ∃ segment, v = .string segment ∧ operand.Writes segment := by
  cases operand with
  | literal s =>
    rw [Operand.tree, Scope.meaning] at h
    cases h
    exact ⟨s, rfl, rfl⟩
  | escaped escaper arguments =>
    rw [Operand.tree, Scope.meaning, meaning_escaper, ok_bind] at h
    obtain ⟨values, _, hcall⟩ := bind_ok h
    cases hcall
    exact ⟨_, escaper.apply_eq _, ⟨_, rfl⟩, escaper.escape_unmarked _⟩

theorem addValues_string (s t : String) : addValues (.string s) (.string t) = .string (s ++ t) := rfl

-- One step of the sum: the right operand adds its segment at the end.
theorem meaning_add {left : Expr} {operand : Operand} {operands : List Operand} {v : Value}
    (hleft : ∀ v, scope.meaning left = .ok v → v.Spells operands)
    (h : scope.meaning (.binary .add left (operand.tree scope.bindings.filters)) = .ok v) :
    v.Spells (operands ++ [operand]) := by
  rw [Scope.meaning] at h
  obtain ⟨value, hvalue, hnext⟩ := bind_ok h
  obtain ⟨value', hvalue', hend⟩ := bind_ok hnext
  obtain ⟨segments, hwrites, rfl⟩ := hleft value hvalue
  obtain ⟨segment, rfl, hsegment⟩ := meaning_operand hvalue'
  cases hend
  refine ⟨segments ++ [segment], List.rel_append hwrites (.cons hsegment .nil), ?_⟩
  rw [BinaryOp.apply, addValues_string, String.join_append, String.join_cons, String.join_nil,
    String.append_empty]

theorem meaning_sum_from {left : Expr} {operands : List Operand}
    (hleft : ∀ v, scope.meaning left = .ok v → v.Spells operands) (rest : List Operand) {v : Value}
    (h : scope.meaning (rest.foldl (fun left operand =>
      .binary .add left (operand.tree scope.bindings.filters)) left) = .ok v) :
    v.Spells (operands ++ rest) := by
  induction rest generalizing left operands with
  | nil =>
    rw [List.append_nil]
    exact hleft v h
  | cons operand rest ih =>
    have hadd := ih (fun v hv => meaning_add hleft hv) h
    rw [List.append_assoc] at hadd
    exact hadd

theorem meaning_sum {first : Operand} {rest : List Operand} {v : Value}
    (h : scope.meaning (.sum scope.bindings.filters first rest) = .ok v) : v.Spells (first :: rest) := by
  have hfirst : ∀ v, scope.meaning (first.tree scope.bindings.filters) = .ok v → v.Spells [first] := by
    intro v hv
    obtain ⟨segment, rfl, hsegment⟩ := meaning_operand hv
    refine ⟨[segment], .cons hsegment .nil, ?_⟩
    rw [String.join_cons, String.join_nil, String.append_empty]
  exact meaning_sum_from hfirst rest h

/-! ### Output -/

theorem meaning_of_renderTree {config : Config} {env : Value} {e : Expr} {out : String}
    (h : config.renderTree env e = .ok out) :
    ∃ v, Scope.meaning ⟨config.bindings, env⟩ e = .ok v ∧ out = v.text := by
  obtain ⟨v, hv, rfl⟩ := map_ok h
  exact ⟨v, Expr.meaning_of_evaluate hv, rfl⟩

theorem markup_of_writes {operand : Operand} {segment : String} (h : operand.Writes segment) :
    markup segment = markup operand.literalText := by
  cases operand with
  | literal s => exact congrArg markup h
  | escaped escaper arguments => exact Unmarked.filter_eq_nil h.2

theorem markup_of_segments {operands : List Operand} {segments : List String}
    (h : List.Forall₂ Operand.Writes operands segments) :
    markup (String.join segments) = markup (String.join (operands.map Operand.literalText)) := by
  rw [markup_join, markup_join]
  induction h with
  | nil => rfl
  | cons hwrites _ ih =>
    rw [List.map_cons, List.flatMap_cons, List.flatMap_cons, ih, markup_of_writes hwrites]

theorem renderTree_sum_segments {config : Config} {env : Value} {first : Operand} {rest : List Operand}
    {out : String} (h : config.renderTree env (.sum config.bindings.filters first rest) = .ok out) :
    ∃ segments, List.Forall₂ Operand.Writes (first :: rest) segments ∧ out = String.join segments := by
  obtain ⟨v, hv, rfl⟩ := meaning_of_renderTree h
  obtain ⟨segments, hwrites, rfl⟩ := meaning_sum hv
  exact ⟨segments, hwrites, rfl⟩

/-- Each operand of a guarded sum writes its own segment of the output, so the markup of the output is
that of the literals, whatever the environment. -/
theorem sum_output_markup (config : Config) (first : Operand) (rest : List Operand) (env : Value)
    (out : String) (h : config.renderTree env (.sum config.bindings.filters first rest) = .ok out) :
    (∃ segments, List.Forall₂ Operand.Writes (first :: rest) segments ∧ out = String.join segments) ∧
      markup out = markup (String.join ((first :: rest).map Operand.literalText)) ∧
      ∀ env' out', config.renderTree env' (.sum config.bindings.filters first rest) = .ok out' →
        markup out' = markup out := by
  have hmarkup : ∀ {env out}, config.renderTree env (.sum config.bindings.filters first rest) = .ok out →
      markup out = markup (String.join ((first :: rest).map Operand.literalText)) := by
    intro env out h
    obtain ⟨segments, hwrites, rfl⟩ := renderTree_sum_segments h
    exact markup_of_segments hwrites
  refine ⟨renderTree_sum_segments h, hmarkup h, fun env' out' h' => ?_⟩
  rw [hmarkup h', hmarkup h]

theorem sum_output_markup_bold :
    let first : Operand := .literal "<b>"
    let rest : List Operand := [.escaped .html [.member (.identifier "e") "x"]]
    let tag : Value := .object (.ofPairs [("x", .string "<")])
    let plain : Value := .object (.ofPairs [("x", .string "a")])
    Config.standard.renderTree tag (.sum "r" first rest) = .ok "<b>&lt;" ∧
      Config.standard.renderTree plain (.sum "r" first rest) = .ok "<b>a" ∧
      markup "<b>a" = markup "<b>&lt;" := by
  intro first rest tag plain
  have htag : Config.standard.renderTree tag (.sum "r" first rest) = .ok ("<b>" ++ escapeHtml "<") := rfl
  have hplain : Config.standard.renderTree plain (.sum "r" first rest) = .ok ("<b>" ++ escapeHtml "a") := rfl
  have hescaped : "<b>" ++ escapeHtml "<" = "<b>&lt;" := by decide
  have hkept : "<b>" ++ escapeHtml "a" = "<b>a" := by decide
  rw [hescaped] at htag
  rw [hkept] at hplain
  obtain ⟨_, _, hequal⟩ := sum_output_markup Config.standard first rest tag _ htag
  exact ⟨htag, hplain, hequal plain _ hplain⟩

end TemplateExpr
