import TemplateExpr.Eval
import TemplateExpr.Proofs.Outcome

/-!
# What an expression means

The value of a tree by recursion on the tree alone: no spine, no ownership of strings and no limit on
depth.  The object, callee or left operand comes first, then the index, the arguments from the left, or
the right operand; the first error met is the result.  Beside it stands the depth that the limited
evaluator needs for a tree.
-/

namespace TemplateExpr

def Value.read (object : Value) (key : String) : Except Error Value :=
  if object.isNullish then .error (.noProperties object.text key)
  else .ok (object.property key).value

/-- Calling a value: only a filter can be called, and it looks at its first argument alone. -/
def Value.call (function : Value) (callee : Expr) (arguments : List Value) : Except Error Value :=
  match function with
  | .filter f => .ok (f.apply (arguments.head?.getD .undefined))
  | _ => .error (.notCallable callee)

def Scope.value? (scope : Scope) (name : String) : Option Value :=
  if name = scope.bindings.filters then some .filters
  else if name = scope.bindings.env then some scope.env
  else none

namespace Scope

mutual

/-- The meaning of a tree. -/
def meaning (scope : Scope) : Expr → Except Error Value
  | .literal value => .ok value.toValue
  | .identifier name =>
    match scope.value? name with
    | some value => .ok value
    | none => .error (.unbound name)
  | .member object property => do
    let object ← scope.meaning object
    object.read property
  | .index object key => do
    let object ← scope.meaning object
    let key ← scope.meaning key
    object.read key.text
  | .call callee arguments => do
    let function ← scope.meaning callee
    let arguments ← scope.meanings arguments
    function.call callee arguments
  | .unary .typeof (.identifier name) =>
    .ok (.string (((scope.value? name).map Value.typeName).getD "undefined"))
  | .unary op operand => do
    let operand ← scope.meaning operand
    pure (op.apply operand)
  | .binary op left right => do
    let left ← scope.meaning left
    let right ← scope.meaning right
    pure (op.apply left right)
  | .logical .and left right => do
    let left ← scope.meaning left
    if left.isTruthy then scope.meaning right else pure left
  | .logical .or left right => do
    let left ← scope.meaning left
    if left.isTruthy then pure left else scope.meaning right
  | .logical .nullish left right => do
    let left ← scope.meaning left
    if left.isNullish then scope.meaning right else pure left
  | .conditional test consequent alternate => do
    let test ← scope.meaning test
    if test.isTruthy then scope.meaning consequent else scope.meaning alternate

/-- The meanings of trees from the left, up to the first error. -/
def meanings (scope : Scope) : List Expr → Except Error (List Value)
  | [] => .ok []
  | e :: es => do
    let value ← scope.meaning e
    let values ← scope.meanings es
    pure (value :: values)

end

/-- The three logical operators as one: the left operand is the result where it decides. -/
theorem meaning_logical (scope : Scope) (op : LogicalOp) (left right : Expr) :
    scope.meaning (.logical op left right) = scope.meaning left >>= fun left =>
      if op.decides left then pure left else scope.meaning right := by
  cases op with
  | and =>
    rw [meaning]
    refine bind_congr fun left => ?_
    cases h : left.isTruthy <;> simp [LogicalOp.decides, h]
  | or =>
    rw [meaning]
    rfl
  | nullish =>
    rw [meaning]
    refine bind_congr fun left => ?_
    cases h : left.isNullish <;> simp [LogicalOp.decides, h]

end Scope

namespace Expr

mutual

/-- The levels that a tree needs: one for itself, and one more for each part off its spine. -/
def depth : Expr → Nat
  | .literal _ => 1
  | .identifier _ => 1
  | .member object _ => object.depth
  | .index object key => max object.depth (key.depth + 1)
  | .call callee arguments => max callee.depth (argumentsDepth arguments)
  | .unary _ operand => operand.depth + 1
  | .binary _ left right => max left.depth (right.depth + 1)
  | .logical _ left right => max left.depth (right.depth + 1)
  | .conditional test consequent alternate =>
    max (test.depth + 1) (max (consequent.depth + 1) (alternate.depth + 1))

/-- The levels that arguments need, each one level below the call. -/
def argumentsDepth : List Expr → Nat
  | [] => 0
  | e :: es => max (e.depth + 1) (argumentsDepth es)

end

theorem depth_pos (e : Expr) : 0 < e.depth := by
  induction e with
  | literal value => exact Nat.one_pos
  | identifier name => exact Nat.one_pos
  | unary op operand _ => exact Nat.succ_pos _
  | conditional test consequent alternate _ _ _ => simp only [depth]; omega
  | member object property ih => exact ih
  | index object key ih _ => simp only [depth]; omega
  | call callee arguments ih _ => simp only [depth]; omega
  | binary op left right ih _ => simp only [depth]; omega
  | logical op left right ih _ => simp only [depth]; omega

end Expr

namespace Expr

mutual

/-- The identifiers of a tree whose values a meaning may ask for: all but those directly under `typeof`. -/
def usedNames : Expr → List String
  | .literal _ => []
  | .identifier name => [name]
  | .member object _ => object.usedNames
  | .index object key => object.usedNames ++ key.usedNames
  | .call callee arguments => callee.usedNames ++ argumentsUsed arguments
  | .unary .typeof (.identifier _) => []
  | .unary _ operand => operand.usedNames
  | .binary _ left right => left.usedNames ++ right.usedNames
  | .logical _ left right => left.usedNames ++ right.usedNames
  | .conditional test consequent alternate =>
    test.usedNames ++ (consequent.usedNames ++ alternate.usedNames)

def argumentsUsed : List Expr → List String
  | [] => []
  | e :: es => e.usedNames ++ argumentsUsed es

end

theorem usedNames_subset {e : Expr} {es : List Expr} (h : e ∈ es) : e.usedNames ⊆ argumentsUsed es := by
  induction es with
  | nil => exact absurd h List.not_mem_nil
  | cons first es ih =>
    obtain rfl | h := List.mem_cons.1 h
    · exact List.subset_append_left _ _
    · exact List.Subset.trans (ih h) (List.subset_append_right _ _)

end Expr

theorem typeof_name_or (op : UnaryOp) (operand : Expr) :
    (∃ name, op = .typeof ∧ operand = .identifier name) ∨
      ∀ name, op = .typeof → operand = .identifier name → False := by
  by_cases h : ∃ name, op = .typeof ∧ operand = .identifier name
  · exact .inl h
  · exact .inr fun name hop he => h ⟨name, hop, he⟩

/-! ### Errors of the meaning -/

/-- The errors that arise from a tree and its environment. -/
def Error.IsGenuine : Error → Prop
  | unbound _ => True
  | noProperties _ _ => True
  | notCallable _ => True
  | _ => False

theorem Error.IsGenuine.kind {error : Error} (h : error.IsGenuine) :
    error.kind = .reference ∨ error.kind = .type := by
  cases error with
  | unbound name => exact .inl rfl
  | noProperties object key => exact .inr rfl
  | notCallable callee => exact .inr rfl
  | _ => exact h.elim

theorem Value.read_errors {sort : Error → Prop} {object : Value} {key : String}
    (h : sort (.noProperties object.text key)) : ErrorsIn sort (object.read key) := by
  unfold read
  split
  · exact .error h
  · exact .ok _

theorem Value.call_errors {sort : Error → Prop} {callee : Expr} (h : sort (.notCallable callee))
    (function : Value) (arguments : List Value) : ErrorsIn sort (function.call callee arguments) := by
  unfold call
  split
  · exact .ok _
  · exact .error h

namespace Scope

variable {scope : Scope} {sort : Error → Prop}

theorem meanings_errors {es : List Expr} (h : ∀ e ∈ es, ErrorsIn sort (scope.meaning e)) :
    ErrorsIn sort (scope.meanings es) := by
  induction es with
  | nil => exact .ok _
  | cons e es ih =>
    rw [meanings]
    have hes := ih fun e' he => h e' (List.mem_cons_of_mem _ he)
    exact (h e List.mem_cons_self).bind fun value => hes.bind fun values => .ok _

/-- A meaning fails at a value of the wrong type, or at a name without a value that the tree uses. -/
theorem meaning_errorsIn (properties : ∀ object key, sort (.noProperties object key))
    (calls : ∀ callee, sort (.notCallable callee)) {e : Expr}
    (names : ∀ name ∈ e.usedNames, scope.value? name = none → sort (.unbound name)) :
    ErrorsIn sort (scope.meaning e) := by
  induction e with
  | literal value =>
    rw [meaning]
    exact .ok _
  | identifier name =>
    rw [meaning]
    cases hvalue : scope.value? name with
    | some value => exact .ok _
    | none => exact .error (names name (List.mem_singleton_self name) hvalue)
  | member object property ih =>
    rw [meaning]
    exact (ih names).bind fun value => value.read_errors (properties _ _)
  | index object key ih ihk =>
    rw [Expr.usedNames, List.forall_mem_append] at names
    rw [meaning]
    exact (ih names.1).bind fun value => (ihk names.2).bind fun name => value.read_errors (properties _ _)
  | call callee arguments ih iha =>
    rw [Expr.usedNames, List.forall_mem_append] at names
    rw [meaning]
    have harguments := meanings_errors fun e he => iha e he fun name used =>
      names.2 name (Expr.usedNames_subset he used)
    exact (ih names.1).bind fun value => harguments.bind fun values => value.call_errors (calls callee) values
  | unary op operand ih =>
    rcases typeof_name_or op operand with ⟨name, rfl, rfl⟩ | hother
    · rw [meaning]
      exact .ok _
    · rw [Expr.usedNames] at names
      · rw [meaning]
        · exact (ih names).bind fun value => .ok _
        · exact hother
      · exact hother
  | binary op left right ih ihr =>
    rw [Expr.usedNames, List.forall_mem_append] at names
    rw [meaning]
    exact (ih names.1).bind fun value => (ihr names.2).bind fun operand => .ok _
  | logical op left right ih ihr =>
    rw [Expr.usedNames, List.forall_mem_append] at names
    rw [meaning_logical]
    refine (ih names.1).bind fun value => ?_
    split
    · exact .ok _
    · exact ihr names.2
  | conditional test consequent alternate iht ihc iha =>
    rw [Expr.usedNames, List.forall_mem_append, List.forall_mem_append] at names
    rw [meaning]
    refine (iht names.1).bind fun value => ?_
    split
    · exact ihc names.2.1
    · exact iha names.2.2

theorem meaning_errors (scope : Scope) (e : Expr) : ErrorsIn Error.IsGenuine (scope.meaning e) :=
  meaning_errorsIn (fun _ _ => trivial) (fun _ => trivial) fun _ _ _ => trivial

end Scope

end TemplateExpr
