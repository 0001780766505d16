import TemplateExpr.Proofs.Evaluation
import TemplateExpr.Render

/-!
# Renaming

The names of the filter library and of the environment are names and nothing more.  With the bindings and the
identifiers renamed alike, every step of an evaluation has the outcome it had before, with the identifiers
in its error renamed as well.
-/

namespace TemplateExpr

namespace Expr

mutual

/-- A tree with its identifiers renamed; properties are not identifiers. -/
def rename (f : String → String) : Expr → Expr
  | .literal value => .literal value
  | .identifier name => .identifier (f name)
  | .member object property => .member (object.rename f) property
  | .index object key => .index (object.rename f) (key.rename f)
  | .call callee arguments => .call (callee.rename f) (renameAll f arguments)
  | .unary op operand => .unary op (operand.rename f)
  | .binary op left right => .binary op (left.rename f) (right.rename f)
  | .logical op left right => .logical op (left.rename f) (right.rename f)
  | .conditional test consequent alternate =>
    .conditional (test.rename f) (consequent.rename f) (alternate.rename f)

def renameAll (f : String → String) : List Expr → List Expr
  | [] => []
  | e :: es => e.rename f :: renameAll f es

end

end Expr

/-- An error with the identifiers in it renamed; the texts of values stay as they are. -/
def Error.rename (f : String → String) : Error → Error
  | unbound name => unbound (f name)
  | noProperties object key => noProperties object key
  | notCallable callee => notCallable (callee.rename f)
  | error => error

theorem Error.kind_rename (f : String → String) (cause : Error) :
    (cause.rename f).kind = cause.kind := by
  cases cause <;> rfl

/-- A renaming that takes the bound names to the new ones, and no other name to a new one. -/
structure Bindings.Renamed (b b' : Bindings) (f : String → String) : Prop where
  filters : f b.filters = b'.filters
  env : f b.env = b'.env
  unbound : ∀ name, name ≠ b.filters → name ≠ b.env → f name ≠ b'.filters ∧ f name ≠ b'.env

namespace Bindings.Renamed

variable {b b' : Bindings} {f : String → String}

theorem eq_filters_iff (h : b.Renamed b' f) (hb : b'.filters ≠ b'.env) (name : String) :
    f name = b'.filters ↔ name = b.filters := by
  constructor
  · intro hname
    by_cases hf : name = b.filters
    · exact hf
    · by_cases he : name = b.env
      · rw [he, h.env] at hname
        exact absurd hname.symm hb
      · exact absurd hname (h.unbound name hf he).1
  · intro hname
    rw [hname, h.filters]

theorem eq_env_iff (h : b.Renamed b' f) (hb : b'.filters ≠ b'.env) (name : String) :
    f name = b'.env ↔ name = b.env := by
  constructor
  · intro hname
    by_cases he : name = b.env
    · exact he
    · by_cases hf : name = b.filters
      · rw [hf, h.filters] at hname
        exact absurd hname hb
      · exact absurd hname (h.unbound name hf he).2
  · intro hname
    rw [hname, h.env]

end Bindings.Renamed

/-! ### Errors renamed in a sequence -/

theorem mapError_bind (f : ε → ε') (r : Except ε α) (next : α → Except ε β) :
    (r >>= next).mapError f = r.mapError f >>= fun a => (next a).mapError f := by
  cases r <;> rfl

theorem mapError_map (f : ε → ε') (r : Except ε α) (g : α → β) :
    (r.map g).mapError f = (r.mapError f).map g := by
  cases r <;> rfl

namespace Scope

variable {b b' : Bindings} {f : String → String} {env : Value}
variable {deeper deeper' : Expr → Except Error Held}

/-! ### One level -/

theorem resolve_rename (h : b.Renamed b' f) (hb : b'.filters ≠ b'.env) (name : String) :
    resolve ⟨b', env⟩ (f name) = (resolve ⟨b, env⟩ name).mapError (.rename f) := by
  simp only [resolve, h.eq_filters_iff hb, h.eq_env_iff hb]
  split
  · rfl
  · split
    · rfl
    · rfl

theorem binds_rename (h : b.Renamed b' f) (hb : b'.filters ≠ b'.env) (name : String) :
    binds ⟨b', env⟩ (f name) = binds ⟨b, env⟩ name := by
  simp only [binds, Bool.beq_eq_decide_eq, h.eq_filters_iff hb, h.eq_env_iff hb]

theorem readMember_rename (object : Held) (key : String) :
    (readMember object key).mapError (.rename f) = readMember object key := by
  unfold readMember
  split
  · rfl
  · rfl

theorem applyCall_rename (callee : Expr) (function : Held) (arguments : List Held) :
    applyCall (callee.rename f) function arguments =
      (applyCall callee function arguments).mapError (.rename f) := by
  unfold applyCall
  split
  · rfl
  · rfl

theorem mapM_rename {es : List Expr}
    (h : ∀ e ∈ es, deeper' (e.rename f) = (deeper e).mapError (.rename f)) :
    (Expr.renameAll f es).mapM deeper' = (es.mapM deeper).mapError (.rename f) := by
  induction es with
  | nil => rfl
  | cons e es ih =>
    have hfirst := h e List.mem_cons_self
    have hrest := ih fun e' he => h e' (List.mem_cons_of_mem _ he)
    rw [Expr.renameAll, List.mapM_cons, List.mapM_cons, hfirst, hrest]
    simp only [mapError_bind]
    rfl

theorem unary_rename (h : b.Renamed b' f) (hb : b'.filters ≠ b'.env) (op : UnaryOp) {operand : Expr}
    (ho : deeper' (operand.rename f) = (deeper operand).mapError (.rename f)) :
    headValue ⟨b', env⟩ deeper' (.unary op (operand.rename f)) =
      (headValue ⟨b, env⟩ deeper (.unary op operand)).mapError (.rename f) := by
  rcases typeof_name_or op operand with ⟨name, rfl, rfl⟩ | hother
  · rw [Expr.rename] at ho ⊢
    rw [headValue, headValue, binds_rename h hb, ho]
    split
    · rw [mapError_map]
    · rfl
  · have hother' : ∀ name, op = .typeof → operand.rename f = .identifier name → False := by
      intro name hop hname
      cases operand with
      | identifier name' => exact hother name' hop rfl
      | _ => cases hname
    rw [headValue, headValue, ho, mapError_map]
    · exact hother
    · exact hother'

/-! ### All levels -/

theorem link_rename {scope scope' : Scope} {room : Nat} {e e' left left' : Expr} {link link' : Link}
    (hspine : ∀ links, e.spineOnto links = left.spineOnto (link :: links))
    (hspine' : ∀ links, e'.spineOnto links = left'.spineOnto (link' :: links))
    (hleft : scope'.evalWithin (room + 1) left' =
      (scope.evalWithin (room + 1) left).mapError (.rename f))
    (hlink : ∀ value, applyLink (scope'.evalWithin room) value link' =
      (applyLink (scope.evalWithin room) value link).mapError (.rename f)) :
    scope'.evalWithin (room + 1) e' = (scope.evalWithin (room + 1) e).mapError (.rename f) := by
  rw [evalWithin_link hspine, evalWithin_link hspine', hleft, mapError_bind]
  simp only [hlink]

-- The inner induction goes down the spine with the room as it is; whatever is off the spine is the outer one.
theorem evalWithin_rename (h : b.Renamed b' f) (hb : b'.filters ≠ b'.env) (room : Nat) (e : Expr) :
    evalWithin ⟨b', env⟩ room (e.rename f) = (evalWithin ⟨b, env⟩ room e).mapError (.rename f) := by
  induction room generalizing e with
  | zero => rfl
  | succ room deeper =>
    induction e with
    | literal value => rfl
    | identifier name =>
      rw [Expr.rename, evalWithin_head rfl, evalWithin_head rfl]
      exact resolve_rename h hb name
    | member object property ih =>
      rw [Expr.rename]
      exact link_rename (fun _ => rfl) (fun _ => rfl) ih fun value => (readMember_rename value property).symm
    | index object key ih _ =>
      rw [Expr.rename]
      refine link_rename (fun _ => rfl) (fun _ => rfl) ih fun value => ?_
      simp only [applyLink, deeper key, mapError_bind, readMember_rename]
    | call callee arguments ih _ =>
      rw [Expr.rename]
      refine link_rename (fun _ => rfl) (fun _ => rfl) ih fun value => ?_
      simp only [applyLink, mapM_rename fun e _ => deeper e, mapError_bind, applyCall_rename]
    | unary op operand _ =>
      rw [Expr.rename, evalWithin_head rfl, evalWithin_head rfl]
      exact unary_rename h hb op (deeper operand)
    | binary op left right ih _ =>
      rw [Expr.rename]
      refine link_rename (fun _ => rfl) (fun _ => rfl) ih fun value => ?_
      simp only [applyLink, deeper right, mapError_bind]
      rfl
    | logical op left right ih _ =>
      rw [Expr.rename]
      refine link_rename (fun _ => rfl) (fun _ => rfl) ih fun value => ?_
      simp only [applyLink, deeper right]
      split
      · rfl
      · rfl
    | conditional test consequent alternate _ _ _ =>
      rw [Expr.rename, evalWithin_head rfl, evalWithin_head rfl]
      simp only [headValue, deeper, mapError_bind]
      refine bind_congr fun value => ?_
      split
      · rfl
      · rfl

end Scope

/-! ### Evaluation -/

theorem evaluate_rename_eq {b b' : Bindings} {f : String → String} (h : b.Renamed b' f)
    (hb : b'.filters ≠ b'.env) (env : Value) (e : Expr) :
    (e.rename f).evaluate b' env = (e.evaluate b env).mapError (.rename f) := by
  rw [Expr.evaluate, Scope.evalWithin_rename h hb, Expr.evaluate, mapError_map]

/-- A tree whose identifiers are renamed like the bindings has the same values.  Its errors are of the same
kind, with the renamed identifier where one is unbound, and their messages are the same except for the
text of what cannot be called. -/
theorem evaluate_rename (b b' : Bindings) (f : String → String) (h : b.Renamed b' f)
    (hb : b'.filters ≠ b'.env) (env : Value) (e : Expr) :
    (∀ v, (e.rename f).evaluate b' env = .ok v ↔ e.evaluate b env = .ok v) ∧
    ∀ cause, e.evaluate b env = .error cause → ∃ cause', (e.rename f).evaluate b' env = .error cause' ∧
      cause'.kind = cause.kind ∧
      (∀ name, cause = .unbound name → cause' = .unbound (f name)) ∧
      (cause.kind = .type ∨ cause.kind = .range → cause'.reason = cause.reason ∨
        ∃ callee, cause = .notCallable callee ∧
          cause'.reason = (callee.rename f).display ++ " is not a function") := by
  rw [evaluate_rename_eq h hb]
  refine ⟨fun v => mapError_eq_ok_iff, fun cause hcause => ?_⟩
  rw [hcause]
  refine ⟨cause.rename f, rfl, cause.kind_rename f, ?_, ?_⟩
  · rintro name rfl
    rfl
  · intro hkind
    cases cause with
    | unbound name => rcases hkind with hkind | hkind <;> cases hkind
    | notCallable callee => exact .inr ⟨callee, rfl, rfl⟩
    | _ => exact .inl rfl

theorem evaluate_rename_swap :
    let b : Bindings := ⟨"r", "e"⟩
    let b' : Bindings := ⟨"e", "r"⟩
    let swap : String → String := fun name => if name = "r" then "e" else if name = "e" then "r" else name
    let env : Value := .object (.ofPairs [("x", .string "<")])
    let escaped : Expr := .call (.member (.identifier "r") "html") [.member (.identifier "e") "x"]
    let called : Expr := .call (.identifier "e") []
    b.Renamed b' swap ∧ b'.filters ≠ b'.env ∧
      (escaped.rename swap).evaluate b' env = .ok (.string "&lt;") ∧
      (Error.notCallable (.identifier "e")).reason = "e is not a function" ∧
      ∃ cause, (called.rename swap).evaluate b' env = .error cause ∧ cause.reason = "r is not a function" := by
  intro b b' swap env escaped called
  have hrenamed : b.Renamed b' swap := by
    refine ⟨rfl, rfl, fun name hfilters henv => ?_⟩
    have hname : swap name = name := (if_neg hfilters).trans (if_neg henv)
    rw [hname]
    exact ⟨henv, hfilters⟩
  have hb : b'.filters ≠ b'.env := by decide
  have hvalue : escaped.evaluate b env = .ok (.string (escapeHtml "<")) := rfl
  have htext : escapeHtml "<" = "&lt;" := by decide
  rw [htext] at hvalue
  have hvalues := (evaluate_rename b b' swap hrenamed hb env escaped).1 (.string "&lt;")
  obtain ⟨cause, hcause, -, -, hreason⟩ :=
    (evaluate_rename b b' swap hrenamed hb env called).2 (.notCallable (.identifier "e")) rfl
  refine ⟨hrenamed, hb, hvalues.2 hvalue, by decide, cause, hcause, ?_⟩
  rcases hreason (.inl rfl) with hsame | ⟨callee, hcallee, hchanged⟩
  · cases hcause
    exact absurd hsame (by decide)
  · cases hcallee
    exact hchanged.trans (by decide)

end TemplateExpr
