import TemplateExpr.Proofs.Meaning

/-!
# The limited evaluator computes the meaning

The evaluator walks down the spine of a tree, applies the links in a loop, extends owned strings in place
and stops at a limit on depth.  Whatever it returns short of the limit is the meaning of the tree, and a
tree whose depth is within the limit never meets it.
-/

namespace TemplateExpr

namespace Scope

variable {scope : Scope} {room : Nat}

/-! ### The spine as recursion -/

/-- The last link of a spine is applied after all that is on its left. -/
theorem evalWithin_link {e left : Expr} {link : Link}
    (h : ∀ links, e.spineOnto links = left.spineOnto (link :: links)) :
    scope.evalWithin (room + 1) e =
      scope.evalWithin (room + 1) left >>= fun value =>
        applyLink (scope.evalWithin room) value link := by
  simp only [evalWithin]
  rw [h, Expr.spineOnto_eq left [link]]
  simp only [List.foldlM_append, List.foldlM_cons, List.foldlM_nil, bind_pure, bind_assoc]

/-- A tree without a spine is its own innermost operand. -/
theorem evalWithin_head {e : Expr} (h : e.spineOnto [] = (e, [])) :
    scope.evalWithin (room + 1) e = scope.headValue (scope.evalWithin room) e := by
  simp only [evalWithin]
  rw [h]
  exact bind_pure _

/-! ### Agreement up to the limit -/

/-- A limited computation beside the one without a limit: the same outcome, or the error of the limit
where it may strike. -/
def Follows (short : Prop) (view : α → β) (limited : Except Error α)
    (full : Except Error β) : Prop :=
  limited.map view = full ∨ short ∧ limited = .error .tooDeep

theorem Follows.mono {short short' : Prop} {view : α → β} {limited : Except Error α}
    {full : Except Error β} (h : Follows short view limited full) (hs : short → short') :
    Follows short' view limited full := by
  rcases h with h | ⟨hshort, h⟩
  · exact .inl h
  · exact .inr ⟨hs hshort, h⟩

theorem Follows.bind {short : Prop} {view : α → β} {view' : α' → β'} {limited : Except Error α}
    {full : Except Error β} {next : α → Except Error α'} {next' : β → Except Error β'}
    (h : Follows short view limited full)
    (hn : ∀ a, Follows short view' (next a) (next' (view a))) :
    Follows short view' (limited >>= next) (full >>= next') := by
  rcases h with h | ⟨hshort, h⟩
  · rw [← h]
    cases limited with
    | error e => exact .inl rfl
    | ok a => exact hn a
  · rw [h]
    exact .inr ⟨hshort, rfl⟩

theorem Follows.map {short : Prop} {view : α → β} {view' : α' → β'} {limited : Except Error α}
    {full : Except Error β} {f : α → α'} {g : β → β'} (h : Follows short view limited full)
    (hf : ∀ a, view' (f a) = g (view a)) : Follows short view' (limited.map f) (full.map g) := by
  rcases h with h | ⟨hshort, h⟩
  · rw [← h]
    cases limited with
    | error e => exact .inl rfl
    | ok a => exact .inl (congrArg Except.ok (hf a))
  · rw [h]
    exact .inr ⟨hshort, rfl⟩

/-! ### Single steps -/

theorem value_combine (op : BinaryOp) (left right : Held) :
    (op.combine left right).value = op.apply left.value right.value := by
  unfold BinaryOp.combine
  split
  · -- An owned string is its own primitive form, so the sum is the same concatenation.
    simp only [Held.value_owned, BinaryOp.apply, addValues, Value.toPrimitive, Value.isComposite,
      Bool.false_eq_true, ite_false]
  · rfl

theorem readMember_eq (object : Held) (key : String) :
    (readMember object key).map Held.value = object.value.read key := by
  unfold readMember Value.read
  split
  · rfl
  · exact congrArg Except.ok (Held.value_property key object)

theorem applyCall_eq (callee : Expr) (function : Held) (arguments : List Held) :
    (applyCall callee function arguments).map Held.value =
      function.value.call callee (arguments.map Held.value) := by
  have hhead : (arguments.head?.getD (.owned .undefined)).value =
      (arguments.map Held.value).head?.getD .undefined := by
    cases arguments <;> rfl
  unfold applyCall Value.call
  cases function.value with
  | filter f =>
    show Except.ok (f.call _).value = Except.ok (f.apply _)
    rw [Filter.value_call, hhead]
  | undefined => rfl
  | null => rfl
  | bool value => rfl
  | number value => rfl
  | string value => rfl
  | array items => rfl
  | object fields => rfl
  | filters => rfl

theorem resolve_eq (name : String) :
    (scope.resolve name).map Held.value = scope.meaning (.identifier name) := by
  unfold resolve meaning value?
  split
  · rfl
  · split <;> rfl

theorem binds_eq (name : String) : scope.binds name = (scope.value? name).isSome := by
  unfold binds value?
  split
  · rename_i h
    simp [h]
  · split
    · rename_i h
      simp [h]
    · rename_i hf he
      simp [hf, he]

/-! ### Agreement of whole evaluations -/

theorem arguments_follow {deeper : Expr → Except Error Held}
    (h : ∀ e, Follows (room < e.depth) Held.value (deeper e) (scope.meaning e)) (es : List Expr) :
    Follows (room + 1 < Expr.argumentsDepth es) (List.map Held.value) (es.mapM deeper)
      (scope.meanings es) := by
  induction es with
  | nil => exact .inl rfl
  | cons e es ih =>
    rw [List.mapM_cons, meanings]
    have he : Follows (room + 1 < Expr.argumentsDepth (e :: es)) Held.value (deeper e)
        (scope.meaning e) := by
      refine (h e).mono fun hs => ?_
      simp only [Expr.argumentsDepth]
      omega
    have hes : Follows (room + 1 < Expr.argumentsDepth (e :: es)) (List.map Held.value)
        (es.mapM deeper) (scope.meanings es) := by
      refine ih.mono fun hs => ?_
      simp only [Expr.argumentsDepth]
      omega
    exact he.bind fun value => hes.bind fun values => .inl rfl

theorem unary_follows {deeper : Expr → Except Error Held}
    (h : ∀ e, Follows (room < e.depth) Held.value (deeper e) (scope.meaning e)) (op : UnaryOp)
    (operand : Expr) :
    Follows (room < operand.depth) Held.value (scope.headValue deeper (.unary op operand))
      (scope.meaning (.unary op operand)) := by
  have hdeeper := h operand
  rcases typeof_name_or op operand with ⟨name, rfl, rfl⟩ | hother
  · -- The type of a name is known without evaluation when the name is unbound.
    rw [headValue, meaning, binds_eq]
    rw [meaning] at hdeeper
    cases hv : scope.value? name with
    | none => exact .inl rfl
    | some value =>
      rw [hv] at hdeeper
      show Follows _ _ (Except.map _ _) (Except.map UnaryOp.typeof.apply (.ok value))
      exact hdeeper.map fun _ => rfl
  · rw [headValue, meaning]
    · exact hdeeper.bind fun value => .inl rfl
    · exact hother
    · exact hother

theorem evalWithin_follows (scope : Scope) (room : Nat) (e : Expr) :
    Follows (room < e.depth) Held.value (scope.evalWithin room e) (scope.meaning e) := by
  induction room generalizing e with
  | zero => exact .inr ⟨e.depth_pos, rfl⟩
  | succ room deeper =>
    induction e with
    | literal value => exact .inl rfl
    | identifier name =>
      rw [evalWithin_head rfl]
      exact .inl (resolve_eq name)
    | unary op operand _ =>
      rw [evalWithin_head rfl]
      exact (unary_follows deeper op operand).mono Nat.succ_lt_succ
    | conditional test consequent alternate _ _ _ =>
      rw [evalWithin_head rfl, headValue, meaning]
      refine ((deeper test).mono fun hs => ?_).bind fun value => ?_
      · simp only [Expr.depth]; omega
      · split
        · refine (deeper consequent).mono fun hs => ?_
          simp only [Expr.depth]; omega
        · refine (deeper alternate).mono fun hs => ?_
          simp only [Expr.depth]; omega
    | member object property ih =>
      rw [evalWithin_link fun _ => rfl, meaning]
      exact ih.bind fun value => .inl (readMember_eq value property)
    | index object key ih _ =>
      rw [evalWithin_link fun _ => rfl, meaning]
      refine (ih.mono fun hs => ?_).bind fun value => ((deeper key).mono fun hs => ?_).bind
        fun name => .inl (readMember_eq value name.value.text)
      · simp only [Expr.depth]; omega
      · simp only [Expr.depth]; omega
    | call callee arguments ih _ =>
      rw [evalWithin_link fun _ => rfl, meaning]
      refine (ih.mono fun hs => ?_).bind fun value => ((arguments_follow deeper arguments).mono
        fun hs => ?_).bind fun values => .inl (applyCall_eq callee value values)
      · simp only [Expr.depth]; omega
      · simp only [Expr.depth]; omega
    | binary op left right ih _ =>
      rw [evalWithin_link fun _ => rfl, meaning]
      refine (ih.mono fun hs => ?_).bind fun value => ((deeper right).mono fun hs => ?_).bind
        fun operand => .inl (congrArg Except.ok (value_combine op value operand))
      · simp only [Expr.depth]; omega
      · simp only [Expr.depth]; omega
    | logical op left right ih _ =>
      rw [evalWithin_link fun _ => rfl, meaning_logical]
      refine (ih.mono fun hs => ?_).bind fun value => ?_
      · simp only [Expr.depth]; omega
      · rw [applyLink]
        split
        · exact .inl rfl
        · refine (deeper right).mono fun hs => ?_
          simp only [Expr.depth]; omega

end Scope

theorem evaluate_follows (bindings : Bindings) (env : Value) (e : Expr) :
    e.evaluate bindings env = Scope.meaning ⟨bindings, env⟩ e ∨
      maxDepth < e.depth ∧ e.evaluate bindings env = .error .tooDeep := by
  rcases Scope.evalWithin_follows ⟨bindings, env⟩ maxDepth e with h | ⟨hdeep, h⟩
  · exact .inl h
  · refine .inr ⟨hdeep, ?_⟩
    rw [Expr.evaluate, h]
    rfl

/-- An evaluation fails for a reason in the tree and its environment, or for depth. -/
theorem evaluate_errors (bindings : Bindings) (env : Value) (e : Expr) :
    ErrorsIn (fun error => error.IsGenuine ∨ error = .tooDeep) (e.evaluate bindings env) := by
  intro error h
  rcases evaluate_follows bindings env e with same | ⟨-, deep⟩
  · rw [same] at h
    exact .inl (Scope.meaning_errors ⟨bindings, env⟩ e error h)
  · rw [deep] at h
    exact .inr (Except.error.inj h).symm

theorem evaluate_kind (bindings : Bindings) (env : Value) (e : Expr) :
    ErrorsIn (fun error => error.kind = .reference ∨ error.kind = .type ∨ error.kind = .range)
      (e.evaluate bindings env) := by
  refine (evaluate_errors bindings env e).mono fun error h => ?_
  rcases h with genuine | rfl
  · exact genuine.kind.imp_right .inl
  · exact .inr (.inr rfl)

theorem Expr.evaluate_ok {bindings : Bindings} {env v : Value} {e : Expr}
    (h : e.evaluate bindings env = .ok v) :
    ∃ held, Scope.evalWithin ⟨bindings, env⟩ maxDepth e = .ok held ∧ held.value = v := by
  unfold evaluate at h
  exact map_ok h

theorem Expr.meaning_of_evaluate {bindings : Bindings} {env v : Value} {e : Expr}
    (h : e.evaluate bindings env = .ok v) : Scope.meaning ⟨bindings, env⟩ e = .ok v := by
  rcases evaluate_follows bindings env e with hsame | ⟨_, hdeep⟩
  · exact hsame.symm.trans h
  · rw [hdeep] at h
    cases h

/-- Evaluation gives the meaning of a tree unless it meets the limit on depth, which only a tree deeper
than the limit can make it do. -/
theorem evaluate_eq_meaning (bindings : Bindings) (env : Value) (e : Expr) :
    (e.evaluate bindings env ≠ .error .tooDeep →
      e.evaluate bindings env = Scope.meaning ⟨bindings, env⟩ e) ∧
    (e.depth ≤ maxDepth → e.evaluate bindings env ≠ .error .tooDeep) := by
  rcases evaluate_follows bindings env e with h | ⟨hdeep, h⟩
  · refine ⟨fun _ => h, fun _ herror => ?_⟩
    rw [h] at herror
    exact Scope.meaning_errors ⟨bindings, env⟩ e _ herror
  · refine ⟨fun hne => absurd h hne, fun hle => ?_⟩
    omega

theorem evaluate_eq_meaning_sum :
    let e : Expr := .binary .add (.literal (.string "a"))
      (.call (.member (.identifier "r") "html") [.index (.identifier "e") (.literal (.string "x"))])
    let env : Value := .object (.ofPairs [("x", .string "<")])
    e.depth = 4 ∧ e.evaluate ⟨"r", "e"⟩ env ≠ .error .tooDeep ∧
      e.evaluate ⟨"r", "e"⟩ env = Scope.meaning ⟨⟨"r", "e"⟩, env⟩ e ∧
      Scope.meaning ⟨⟨"r", "e"⟩, env⟩ e = .ok (.string "a&lt;") := by
  refine ⟨by decide, ?_, ?_, rfl⟩
  · exact (evaluate_eq_meaning _ _ _).2 (by decide)
  · exact (evaluate_eq_meaning _ _ _).1 ((evaluate_eq_meaning _ _ _).2 (by decide))

end TemplateExpr
