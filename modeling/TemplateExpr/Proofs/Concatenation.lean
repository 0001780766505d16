import Mathlib.Data.List.Forall2
import TemplateExpr.Proofs.Evaluation

/-!
# Concatenations

A sum that begins with a string is this string and behind it the texts of the other operands, however many
they are and whether the string is lent or owned.  The value on the left is a string after every step, and
an operand is evaluated one level below the sum, so only a deep operand can meet the limit.
-/

namespace TemplateExpr

/-- The sum of trees, grouped from the left. -/
def Expr.sumFrom (first : Expr) (rest : List Expr) : Expr := rest.foldl (.binary .add) first

namespace Scope

variable {scope : Scope} {room : Nat}

theorem value_add_of_string {left : Held} {s : String} (h : left.value = .string s) (right : Held) :
    (BinaryOp.add.combine left right).value = .string (s ++ right.value.text) := by
  rw [value_combine, h, ← Value.text_toPrimitive right.value]
  rfl

theorem evalWithin_eq_meaning {e : Expr} (h : e.depth ≤ room) :
    (scope.evalWithin room e).map Held.value = scope.meaning e := by
  rcases evalWithin_follows scope room e with hsame | ⟨hdeep, -⟩
  · exact hsame
  · omega

/-- The operands of a sum are added in a loop, each of them evaluated one level deeper. -/
theorem evalWithin_sumFrom (first : Expr) (rest : List Expr) :
    scope.evalWithin (room + 1) (first.sumFrom rest) =
      scope.evalWithin (room + 1) first >>= fun left =>
        rest.foldlM (fun left e => applyLink (scope.evalWithin room) left (.binary .add e)) left := by
  induction rest generalizing first with
  | nil => exact (bind_pure _).symm
  | cons e rest ih =>
    have hspine : ∀ links, (Expr.binary .add first e).spineOnto links =
        first.spineOnto (.binary .add e :: links) := fun _ => rfl
    show scope.evalWithin (room + 1) ((Expr.binary .add first e).sumFrom rest) = _
    rw [ih, evalWithin_link hspine, bind_assoc]
    rfl

theorem applyLink_add (deeper : Expr → Except Error Held) (left : Held) (e : Expr) :
    applyLink deeper left (.binary .add e) = (deeper e).map (BinaryOp.add.combine left) := rfl

-- The invariant of the loop is that the value on the left is a string.
theorem foldlM_add_of_string {left : Held} {s : String} (hleft : left.value = .string s)
    {rest : List Expr} (hdepth : ∀ e ∈ rest, e.depth ≤ room) :
    (rest.foldlM (fun left e => applyLink (scope.evalWithin room) left (.binary .add e)) left).map
        Held.value =
      (scope.meanings rest).map fun vs => .string (s ++ String.join (vs.map Value.text)) := by
  induction rest generalizing left s with
  | nil =>
    show Except.ok left.value = Except.ok (.string (s ++ String.join []))
    rw [hleft, String.join_nil, String.append_empty]
  | cons e rest ih =>
    have hoperand : e.depth ≤ room := hdepth e List.mem_cons_self
    have hrest : ∀ e ∈ rest, e.depth ≤ room := fun e' he => hdepth e' (List.mem_cons_of_mem _ he)
    rw [List.foldlM_cons, applyLink_add, meanings, ← evalWithin_eq_meaning hoperand]
    cases scope.evalWithin room e with
    | error cause => rfl
    | ok operand =>
      refine (ih (value_add_of_string hleft operand) hrest).trans ?_
      cases scope.meanings rest with
      | error cause => rfl
      | ok vs =>
        show Except.ok (Value.string (s ++ operand.value.text ++ String.join (vs.map Value.text))) =
          Except.ok (Value.string (s ++ String.join (operand.value.text :: vs.map Value.text)))
        rw [String.join_cons, String.append_assoc]

/-! ### Outcomes of operands -/

theorem meanings_of_values {es : List Expr} {vs : List Value}
    (h : List.Forall₂ (fun e v => scope.meaning e = .ok v) es vs) : scope.meanings es = .ok vs := by
  induction h with
  | nil => rfl
  | cons hvalue _ ih =>
    rw [meanings, hvalue, ih]
    rfl

theorem meanings_of_error {before after : List Expr} {e : Expr} {vs : List Value} {cause : Error}
    (h : List.Forall₂ (fun e v => scope.meaning e = .ok v) before vs)
    (he : scope.meaning e = .error cause) : scope.meanings (before ++ e :: after) = .error cause := by
  induction h with
  | nil =>
    rw [List.nil_append, meanings, he]
    rfl
  | cons hvalue _ ih =>
    rw [List.cons_append, meanings, hvalue, ih]
    rfl

end Scope

/-! ### Evaluation -/

theorem evaluate_sumFrom {bindings : Bindings} {env : Value} {first : Expr} {s : String}
    {rest : List Expr} (hfirst : first.evaluate bindings env = .ok (.string s))
    (hdepth : ∀ e ∈ rest, e.depth < maxDepth) :
    (first.sumFrom rest).evaluate bindings env =
      (Scope.meanings ⟨bindings, env⟩ rest).map fun vs =>
        .string (s ++ String.join (vs.map Value.text)) := by
  obtain ⟨left, hleft, hs⟩ := Expr.evaluate_ok hfirst
  rw [maxDepth] at hleft
  rw [Expr.evaluate, maxDepth, Scope.evalWithin_sumFrom, hleft, ok_bind]
  exact Scope.foldlM_add_of_string hs fun e he => Nat.le_of_lt_succ (hdepth e he)

/-- Less than the whole depth is enough for a tree. -/
theorem evaluate_of_depth {bindings : Bindings} {env : Value} {e : Expr} (h : e.depth < maxDepth) :
    e.evaluate bindings env = Scope.meaning ⟨bindings, env⟩ e :=
  Scope.evalWithin_eq_meaning (Nat.le_of_lt h)

/-- A sum of any length that begins with a string is the string and the texts of the other operands in order,
if they all have values; otherwise its error is that of the first operand without one.  Operands with a
level to spare never make it meet the limit on depth. -/
theorem evaluate_concatenation (bindings : Bindings) (env : Value) (first : Expr) (s : String)
    (rest : List Expr) (hfirst : first.evaluate bindings env = .ok (.string s))
    (hdepth : ∀ e ∈ rest, e.depth < maxDepth) :
    (∀ vs, List.Forall₂ (fun e v => e.evaluate bindings env = .ok v) rest vs →
      (first.sumFrom rest).evaluate bindings env =
        .ok (.string (s ++ String.join (vs.map Value.text)))) ∧
    (∀ before e after vs cause, rest = before ++ e :: after →
      List.Forall₂ (fun e v => e.evaluate bindings env = .ok v) before vs →
      e.evaluate bindings env = .error cause →
      (first.sumFrom rest).evaluate bindings env = .error cause) ∧
    (first.sumFrom rest).evaluate bindings env ≠ .error .tooDeep := by
  have hvalues : ∀ {es vs}, List.Forall₂ (fun e v => e.evaluate bindings env = .ok v) es vs →
      List.Forall₂ (fun e v => Scope.meaning ⟨bindings, env⟩ e = .ok v) es vs :=
    List.Forall₂.imp fun _ _ => Expr.meaning_of_evaluate
  rw [evaluate_sumFrom hfirst hdepth]
  refine ⟨fun vs hvs => ?_, ?_, fun hdeep => ?_⟩
  · rw [Scope.meanings_of_values (hvalues hvs)]
    rfl
  · rintro before e after vs cause rfl hvs he
    rw [evaluate_of_depth (hdepth e (List.mem_append_right _ List.mem_cons_self))] at he
    rw [Scope.meanings_of_error (hvalues hvs) he]
    rfl
  · have hgenuine : ErrorsIn Error.IsGenuine (Scope.meanings ⟨bindings, env⟩ rest) :=
      Scope.meanings_errors fun e _ => Scope.meaning_errors ⟨bindings, env⟩ e
    exact hgenuine.map _ _ hdeep

theorem evaluate_concatenation_lent :
    let env : Value := .object (.ofPairs [("x", .string "a")])
    let first : Expr := .member (.identifier "e") "x"
    let flag : Expr := .literal (.bool true)
    let missing : Expr := .member (.literal .null) "y"
    first.evaluate ⟨"r", "e"⟩ env = .ok (.string "a") ∧
      (first.sumFrom [flag, .literal .null]).evaluate ⟨"r", "e"⟩ env = .ok (.string "atruenull") ∧
      (first.sumFrom [flag, missing, .identifier "z"]).evaluate ⟨"r", "e"⟩ env =
        .error (.noProperties "null" "y") := by
  intro env first flag missing
  have hfirst : first.evaluate ⟨"r", "e"⟩ env = .ok (.string "a") := rfl
  have hflag : flag.evaluate ⟨"r", "e"⟩ env = .ok (.bool true) := rfl
  have hnull : (Expr.literal .null).evaluate ⟨"r", "e"⟩ env = .ok .null := rfl
  have hmissing : missing.evaluate ⟨"r", "e"⟩ env = .error (.noProperties "null" "y") := rfl
  obtain ⟨hvalues, -, -⟩ :=
    evaluate_concatenation ⟨"r", "e"⟩ env first "a" [flag, .literal .null] hfirst (by decide)
  obtain ⟨-, hfails, -⟩ :=
    evaluate_concatenation ⟨"r", "e"⟩ env first "a" [flag, missing, .identifier "z"] hfirst (by decide)
  have hsum := hvalues [.bool true, .null] (.cons hflag (.cons hnull .nil))
  have htexts : "a" ++ String.join ([Value.bool true, .null].map Value.text) = "atruenull" := by decide
  rw [htexts] at hsum
  exact ⟨hfirst, hsum, hfails [flag] missing [.identifier "z"] [.bool true] _ rfl (.cons hflag .nil) hmissing⟩

end TemplateExpr
