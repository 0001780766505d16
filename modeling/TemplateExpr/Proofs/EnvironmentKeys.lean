import Mathlib.Data.Set.Insert
import TemplateExpr.Proofs.Evaluation

/-!
# The keys that an expression reads

Where a tree names the environment only to read certain keys of it, two objects with the same values
under these keys cannot be told apart: every step of the evaluation has the same outcome in both.
-/

namespace TemplateExpr

/-- A tree that uses the name `env` for nothing but to read some of the keys `keys`. -/
inductive Expr.ReadsOnly (env : String) (keys : Set String) : Expr → Prop where
  | envMember {property} : property ∈ keys → ReadsOnly env keys (.member (.identifier env) property)
  | envIndex {key} : key ∈ keys →
    ReadsOnly env keys (.index (.identifier env) (.literal (.string key)))
  | literal {value} : ReadsOnly env keys (.literal value)
  | identifier {name} : name ≠ env → ReadsOnly env keys (.identifier name)
  | member {object property} : ReadsOnly env keys object → ReadsOnly env keys (.member object property)
  | index {object key} : ReadsOnly env keys object → ReadsOnly env keys key →
    ReadsOnly env keys (.index object key)
  | call {callee arguments} : ReadsOnly env keys callee → (∀ e ∈ arguments, ReadsOnly env keys e) →
    ReadsOnly env keys (.call callee arguments)
  | unary {op operand} : ReadsOnly env keys operand → ReadsOnly env keys (.unary op operand)
  | binary {op left right} : ReadsOnly env keys left → ReadsOnly env keys right →
    ReadsOnly env keys (.binary op left right)
  | logical {op left right} : ReadsOnly env keys left → ReadsOnly env keys right →
    ReadsOnly env keys (.logical op left right)
  | conditional {test consequent alternate} : ReadsOnly env keys test →
    ReadsOnly env keys consequent → ReadsOnly env keys alternate →
    ReadsOnly env keys (.conditional test consequent alternate)

/-- Objects with the same values under certain keys, or without any there. -/
def AgreeOn (keys : Set String) (fields fields' : Fields Value none) : Prop :=
  ∀ key ∈ keys, fields.get? key = fields'.get? key

namespace Scope

variable {bindings : Bindings} {keys : Set String} {fields fields' : Fields Value none} {room : Nat}

/-! ### The environment itself -/

theorem readMember_agree (h : AgreeOn keys fields fields') {key : String} (hkey : key ∈ keys) :
    readMember (.lent (.object fields)) key = readMember (.lent (.object fields')) key := by
  have hproperty : (Held.lent (.object fields)).property key = (Held.lent (.object fields')).property key := by
    simp only [Held.property, Value.property, h key hkey]
  exact congrArg Except.ok hproperty

theorem resolve_env_agree (h : AgreeOn keys fields fields') {key : String} (hkey : key ∈ keys) :
    (resolve ⟨bindings, .object fields⟩ bindings.env >>= fun object => readMember object key) =
      (resolve ⟨bindings, .object fields'⟩ bindings.env >>= fun object => readMember object key) := by
  simp only [resolve]
  split
  · rfl
  · simp only [if_true, ok_bind]
    exact readMember_agree h hkey

/-! ### One level -/

variable {env env' : Value}

theorem resolve_agree {name : String} (h : name ≠ bindings.env) :
    resolve ⟨bindings, env⟩ name = resolve ⟨bindings, env'⟩ name := by
  simp only [resolve, if_neg h]

theorem head_agree {e : Expr} (hspine : e.spineOnto [] = (e, []))
    (h : headValue ⟨bindings, env⟩ (evalWithin ⟨bindings, env⟩ room) e =
      headValue ⟨bindings, env'⟩ (evalWithin ⟨bindings, env'⟩ room) e) :
    evalWithin ⟨bindings, env⟩ (room + 1) e = evalWithin ⟨bindings, env'⟩ (room + 1) e := by
  rw [evalWithin_head hspine, evalWithin_head hspine, h]

theorem link_agree {e left : Expr} {link : Link}
    (hspine : ∀ links, e.spineOnto links = left.spineOnto (link :: links))
    (hleft : evalWithin ⟨bindings, env⟩ (room + 1) left = evalWithin ⟨bindings, env'⟩ (room + 1) left)
    (hlink : ∀ value, applyLink (evalWithin ⟨bindings, env⟩ room) value link =
      applyLink (evalWithin ⟨bindings, env'⟩ room) value link) :
    evalWithin ⟨bindings, env⟩ (room + 1) e = evalWithin ⟨bindings, env'⟩ (room + 1) e := by
  rw [evalWithin_link hspine, evalWithin_link hspine, hleft]
  simp only [hlink]

theorem mapM_agree {deeper deeper' : Expr → Except Error Held} {es : List Expr}
    (h : ∀ e ∈ es, deeper e = deeper' e) : es.mapM deeper = es.mapM deeper' := by
  induction es with
  | nil => rfl
  | cons e es ih =>
    have hfirst := h e List.mem_cons_self
    have hrest := ih fun e' he => h e' (List.mem_cons_of_mem _ he)
    rw [List.mapM_cons, List.mapM_cons, hfirst, hrest]

theorem unary_agree {deeper deeper' : Expr → Except Error Held} (op : UnaryOp) {operand : Expr}
    (h : deeper operand = deeper' operand) :
    headValue ⟨bindings, env⟩ deeper (.unary op operand) =
      headValue ⟨bindings, env'⟩ deeper' (.unary op operand) := by
  rcases typeof_name_or op operand with ⟨name, rfl, rfl⟩ | hother
  · rw [headValue, headValue, h]
    rfl
  · rw [headValue, headValue, h]
    · exact hother
    · exact hother

/-! ### All levels -/

theorem envMember_agree (h : AgreeOn keys fields fields') {key : String} (hkey : key ∈ keys) :
    evalWithin ⟨bindings, .object fields⟩ (room + 1) (.member (.identifier bindings.env) key) =
      evalWithin ⟨bindings, .object fields'⟩ (room + 1) (.member (.identifier bindings.env) key) := by
  have hspine : ∀ links, (Expr.member (.identifier bindings.env) key).spineOnto links =
      (Expr.identifier bindings.env).spineOnto (.member key :: links) := fun _ => rfl
  rw [evalWithin_link hspine, evalWithin_link hspine, evalWithin_head rfl, evalWithin_head rfl]
  exact resolve_env_agree h hkey

-- The literal itself takes a level: without one, both evaluations stop there.
theorem envIndex_agree (h : AgreeOn keys fields fields') {key : String} (hkey : key ∈ keys) :
    evalWithin ⟨bindings, .object fields⟩ (room + 1)
        (.index (.identifier bindings.env) (.literal (.string key))) =
      evalWithin ⟨bindings, .object fields'⟩ (room + 1)
        (.index (.identifier bindings.env) (.literal (.string key))) := by
  have hspine : ∀ links, (Expr.index (.identifier bindings.env) (.literal (.string key))).spineOnto links =
      (Expr.identifier bindings.env).spineOnto (.index (.literal (.string key)) :: links) := fun _ => rfl
  rw [evalWithin_link hspine, evalWithin_link hspine, evalWithin_head rfl, evalWithin_head rfl]
  cases room with
  | zero =>
    simp only [headValue, resolve]
    split
    · rfl
    · simp only [if_true]
      rfl
  | succ room => exact resolve_env_agree h hkey

-- The inner induction goes down the spine with the room as it is; whatever is off the spine is the outer one.
theorem evalWithin_agree (h : AgreeOn keys fields fields') (room : Nat) {e : Expr}
    (he : e.ReadsOnly bindings.env keys) :
    evalWithin ⟨bindings, .object fields⟩ room e = evalWithin ⟨bindings, .object fields'⟩ room e := by
  induction room generalizing e with
  | zero => rfl
  | succ room deeper =>
    induction he with
    | envMember hkey => exact envMember_agree h hkey
    | envIndex hkey => exact envIndex_agree h hkey
    | literal => rfl
    | identifier hname => exact head_agree rfl (resolve_agree hname)
    | member _ ih => exact link_agree (fun _ => rfl) ih fun _ => rfl
    | index _ hkey ih _ =>
      refine link_agree (fun _ => rfl) ih fun value => ?_
      simp only [applyLink, deeper hkey]
    | call _ harguments ih _ =>
      refine link_agree (fun _ => rfl) ih fun value => ?_
      simp only [applyLink, mapM_agree fun e he => deeper (harguments e he)]
    | unary hoperand _ => exact head_agree rfl (unary_agree _ (deeper hoperand))
    | binary _ hright ih _ =>
      refine link_agree (fun _ => rfl) ih fun value => ?_
      simp only [applyLink, deeper hright]
    | logical _ hright ih _ =>
      refine link_agree (fun _ => rfl) ih fun value => ?_
      simp only [applyLink, deeper hright]
    | conditional htest hconsequent halternate _ _ _ =>
      refine head_agree rfl ?_
      rw [headValue, headValue, deeper htest, deeper hconsequent, deeper halternate]

end Scope

/-- The value or error of a tree that reads only certain keys of the environment is the same in all objects
that agree on these keys. -/
theorem evaluate_agree (bindings : Bindings) (keys : Set String) (e : Expr)
    (fields fields' : Fields Value none) (he : e.ReadsOnly bindings.env keys)
    (h : AgreeOn keys fields fields') :
    e.evaluate bindings (.object fields) = e.evaluate bindings (.object fields') := by
  rw [Expr.evaluate, Expr.evaluate, Scope.evalWithin_agree h maxDepth he]

theorem evaluate_agree_greeting :
    let e : Expr := .binary .add (.index (.identifier "e") (.literal (.string "greeting")))
      (.call (.member (.identifier "r") "html") [.member (.identifier "e") "name"])
    let keys : Set String := {"greeting", "name"}
    let fields : Fields Value none := .ofPairs [("greeting", .string "Hi "), ("name", .string "<")]
    let fields' : Fields Value none :=
      .ofPairs [("age", .null), ("greeting", .string "Hi "), ("name", .string "<"), ("secret", .bool true)]
    e.ReadsOnly "e" keys ∧ AgreeOn keys fields fields' ∧
      e.evaluate ⟨"r", "e"⟩ (.object fields) = .ok (.string "Hi &lt;") ∧
      e.evaluate ⟨"r", "e"⟩ (.object fields') = .ok (.string "Hi &lt;") := by
  intro e keys fields fields'
  have hreads : e.ReadsOnly "e" keys := by
    refine .binary (.envIndex (.inl rfl)) (.call (.member (.identifier (by decide))) ?_)
    intro argument hargument
    rw [List.mem_singleton.1 hargument]
    exact .envMember (.inr rfl)
  have hagree : AgreeOn keys fields fields' := by
    rintro key (rfl | rfl)
    · rfl
    · rfl
  have hescaped : "Hi " ++ escapeHtml "<" = "Hi &lt;" := by decide
  have hvalue : e.evaluate ⟨"r", "e"⟩ (.object fields) = .ok (.string ("Hi " ++ escapeHtml "<")) := rfl
  rw [hescaped] at hvalue
  have hsame := evaluate_agree ⟨"r", "e"⟩ keys e fields _ hreads hagree
  exact ⟨hreads, hagree, hvalue, hsame.symm.trans hvalue⟩

end TemplateExpr
