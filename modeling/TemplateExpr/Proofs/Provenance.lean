import TemplateExpr.Proofs.Evaluation
import TemplateExpr.Value.Json

/-!
# Where values come from

An evaluation makes undefined, booleans, numbers and strings, and names the filter library; every array
and every object it returns is lent out of the environment.  Filters can be reached only through the name
of the library, so an expression without that name calls nothing.

Both facts are invariants of the values in use.  `Scope.Preserves` says once what an invariant must
withstand, and `Scope.evalWithin_preserves` takes it through an evaluation of any depth.
-/

namespace TemplateExpr

/-! ### Parts of a value -/

namespace Value

def isContainer : Value → Bool
  | array _ | object _ => true
  | _ => false

/-- Whether a value is the filter library or one of its filters. -/
def isCapability : Value → Bool
  | filters | filter _ => true
  | _ => false

/-- The parts of a value: itself, and what its arrays and objects hold at any depth. -/
inductive Holds (whole : Value) : Value → Prop where
  | itself : Holds whole whole
  | item {items part} : Holds whole (array items) → part ∈ items → Holds whole part
  | field {fields key part} : Holds whole (object fields) → (key, part) ∈ fields.toList → Holds whole part

mutual

/-- Whether no part of a value is the library or a filter. -/
def isInert : Value → Bool
  | filters => false
  | filter _ => false
  | array items => itemsInert items
  | object fields => fieldsInert fields
  | _ => true

def itemsInert : List Value → Bool
  | [] => true
  | item :: items => isInert item && itemsInert items

def fieldsInert {bound : Option String} : Fields Value bound → Bool
  | .nil => true
  | .cons _ _ part fields => isInert part && fieldsInert fields

end

theorem itemsInert_iff {items : List Value} :
    itemsInert items = true ↔ ∀ part ∈ items, part.isInert = true := by
  induction items with
  | nil => simp [itemsInert]
  | cons item items ih => simp [itemsInert, ih]

theorem fieldsInert_iff {bound : Option String} {fields : Fields Value bound} :
    fieldsInert fields = true ↔ ∀ field ∈ fields.toList, field.2.isInert = true := by
  induction fields with
  | nil => simp [fieldsInert]
  | cons key above part fields ih => simp only [fieldsInert, Bool.and_eq_true, ih, Fields.toList_cons, List.forall_mem_cons]

theorem Holds.isInert {whole part : Value} (h : whole.Holds part) (hwhole : whole.isInert = true) :
    part.isInert = true := by
  induction h with
  | itself => exact hwhole
  | item _ hmem ih =>
    rw [Value.isInert] at ih
    exact itemsInert_iff.1 ih _ hmem
  | field _ hmem ih =>
    rw [Value.isInert] at ih
    exact fieldsInert_iff.1 ih _ hmem

theorem isCapability_of_isInert {v : Value} (h : v.isInert = true) : v.isCapability = false := by
  cases v with
  | filters => simp [isInert] at h
  | filter f => simp [isInert] at h
  | _ => rfl

theorem fieldsInert_add {bound : Option String} {key : String} {above : IsAbove key bound} {v : Value}
    {fields : Fields Value bound} (hv : v.isInert = true) (hfields : fieldsInert fields = true) :
    fieldsInert (fields.add key v above) = true := by
  refine fieldsInert_iff.2 fun field hfield => ?_
  obtain rfl | hfield := Fields.mem_add hfield
  · exact hv
  · exact fieldsInert_iff.1 hfields field hfield

mutual

/-- A document holds no filters, so no environment that is read from one does. -/
theorem isInert_ofJson (document : Json) : (ofJson document).isInert = true := by
  cases document with
  | array items => exact itemsInert_ofJson items
  | object members => exact fieldsInert_ofJson members
  | _ => rfl

theorem itemsInert_ofJson (items : List Json) : itemsInert (ofJsonItems items) = true := by
  cases items with
  | nil => rfl
  | cons item items =>
    rw [ofJsonItems, itemsInert, isInert_ofJson item, itemsInert_ofJson items]
    rfl

theorem fieldsInert_ofJson (members : List (String × Json)) :
    fieldsInert (ofJsonMembers members) = true := by
  cases members with
  | nil => rfl
  | cons member members =>
    obtain ⟨key, value⟩ := member
    exact fieldsInert_add (isInert_ofJson value) (fieldsInert_ofJson members)

end

theorem kind_cases (v : Value) :
    v.isComposite = false ∨ v.isCapability = true ∨ v.isContainer = true := by
  cases v with
  | array items => exact .inr (.inr rfl)
  | object fields => exact .inr (.inr rfl)
  | filters => exact .inr (.inl rfl)
  | filter f => exact .inr (.inl rfl)
  | _ => exact .inl rfl

theorem isComposite_iff {v : Value} :
    v.isComposite = false ↔ v.isContainer = false ∧ v.isCapability = false := by
  cases v <;> simp [isComposite, isContainer, isCapability]

/-! ### Properties -/

/-- What reading a property can give: a part of a container, something new that is no container (and a
filter only from the library), or nothing. -/
theorem property_cases (v : Value) (key : String) :
    (∃ part, v.property key = .stored part ∧ v.isContainer = true ∧
      ∀ whole : Value, whole.Holds v → whole.Holds part) ∨
    (∃ made, v.property key = .computed made ∧ made.isContainer = false ∧
      (made.isCapability = true → v.isCapability = true)) ∨
    v.property key = .missing := by
  cases v with
  | array items =>
    rw [property]
    split
    · exact .inr (.inl ⟨_, rfl, rfl, fun h => by cases h⟩)
    · cases hpart : (indexOfKey? key).bind fun i => items[i]? with
      | none => exact .inr (.inr rfl)
      | some part =>
        obtain ⟨i, _, hi⟩ := Option.bind_eq_some_iff.1 hpart
        exact .inl ⟨part, rfl, rfl, fun whole h => .item h (List.mem_of_getElem? hi)⟩
  | object fields =>
    rw [property]
    cases hpart : fields.get? key with
    | none => exact .inr (.inr rfl)
    | some part => exact .inl ⟨part, rfl, rfl, fun whole h => .field h (Fields.mem_of_get? hpart)⟩
  | string s =>
    rw [property]
    split
    · exact .inr (.inl ⟨_, rfl, rfl, fun h => by cases h⟩)
    · cases hunit : (indexOfKey? key).bind fun i =>
          ((Utf16.units s.toList)[i]?).map fun unit => string (String.ofList [Utf16.charOf unit]) with
      | none => exact .inr (.inr rfl)
      | some made =>
        obtain ⟨i, _, hi⟩ := Option.bind_eq_some_iff.1 hunit
        obtain ⟨unit, _, rfl⟩ := Option.map_eq_some_iff.1 hi
        exact .inr (.inl ⟨_, rfl, rfl, fun h => by cases h⟩)
  | filters =>
    rw [property]
    cases Filter.ofName? key with
    | none => exact .inr (.inr rfl)
    | some f => exact .inr (.inl ⟨_, rfl, rfl, fun _ => rfl⟩)
  | filter f =>
    rw [property]
    split
    · exact .inr (.inl ⟨_, rfl, rfl, fun h => by cases h⟩)
    · exact .inr (.inr rfl)
  | _ => exact .inr (.inr rfl)

end Value

/-! ### Names of a tree -/

namespace Expr

mutual

/-- The identifiers of a tree. -/
def names : Expr → List String
  | .literal _ => []
  | .identifier name => [name]
  | .member object _ => object.names
  | .index object key => object.names ++ key.names
  | .call callee arguments => callee.names ++ argumentNames arguments
  | .unary _ operand => operand.names
  | .binary _ left right => left.names ++ right.names
  | .logical _ left right => left.names ++ right.names
  | .conditional test consequent alternate => test.names ++ consequent.names ++ alternate.names

def argumentNames : List Expr → List String
  | [] => []
  | e :: es => e.names ++ argumentNames es

end

theorem mem_argumentNames {name : String} {es : List Expr} :
    name ∈ argumentNames es ↔ ∃ e ∈ es, name ∈ e.names := by
  induction es with
  | nil => simp [argumentNames]
  | cons e es ih => simp [argumentNames, ih]

end Expr

/-! ### Invariants of an evaluation -/

namespace Scope

/-- A condition on values in use that an evaluation keeps, as long as its names are admitted. -/
structure Preserves (scope : Scope) (admits : String → Prop) (cond : Held → Prop) : Prop where
  scalar : ∀ v, v.isComposite = false → cond (.owned v)
  name : ∀ name held, admits name → scope.resolve name = .ok held → cond held
  property : ∀ held key, cond held → cond (held.property key)
  call : ∀ function f argument, cond function → function.value = .filter f → cond argument →
    cond (f.call argument)

variable {scope : Scope} {admits : String → Prop} {cond : Held → Prop} {room : Nat}

theorem isComposite_toValue (value : Literal) : value.toValue.isComposite = false := by
  cases value <;> rfl

theorem isComposite_unary (op : UnaryOp) (v : Value) : (op.apply v).isComposite = false := by
  cases op <;> rfl

theorem isComposite_addValues (left right : Value) : (addValues left right).isComposite = false := by
  unfold addValues
  split <;> rfl

theorem isComposite_binary (op : BinaryOp) (left right : Value) :
    (op.apply left right).isComposite = false := by
  cases op with
  | add => exact isComposite_addValues left right
  | _ => rfl

theorem Preserves.combine (h : scope.Preserves admits cond) (op : BinaryOp) (left right : Held) :
    cond (op.combine left right) := by
  unfold BinaryOp.combine
  split
  · exact h.scalar _ rfl
  · exact h.scalar _ (isComposite_binary op _ _)

theorem Preserves.readMember (h : scope.Preserves admits cond) {object : Held} (hobject : cond object)
    (key : String) : Ensures cond (readMember object key) := by
  unfold TemplateExpr.readMember
  split
  · exact .error _
  · exact .ok (h.property object key hobject)

theorem Preserves.applyCall (h : scope.Preserves admits cond) {function : Held} (hfunction : cond function)
    (callee : Expr) {arguments : List Held} (harguments : ∀ a ∈ arguments, cond a) :
    Ensures cond (applyCall callee function arguments) := by
  have hfirst : cond (arguments.head?.getD (.owned .undefined)) := by
    cases arguments with
    | nil => exact h.scalar _ rfl
    | cons a rest => exact harguments a List.mem_cons_self
  unfold Scope.applyCall
  split
  · rename_i f hf
    exact .ok (h.call function f _ hfunction hf hfirst)
  · exact .error _

theorem Preserves.unary (h : scope.Preserves admits cond) (deeper : Expr → Except Error Held)
    (op : UnaryOp) (operand : Expr) : Ensures cond (scope.headValue deeper (.unary op operand)) := by
  have happly : ∀ held : Held, cond (.owned (op.apply held.value)) :=
    fun held => h.scalar _ (isComposite_unary op _)
  rcases typeof_name_or op operand with ⟨name, rfl, rfl⟩ | hother
  · rw [headValue]
    split
    · exact Ensures.map (fun _ _ => trivial) fun held _ => happly held
    · exact .ok (h.scalar _ rfl)
  · rw [headValue]
    · exact Ensures.map (fun _ _ => trivial) fun held _ => happly held
    · exact hother

-- As in the evaluator, the inner induction goes down the spine with the room as it is.
theorem evalWithin_preserves (h : scope.Preserves admits cond) (room : Nat) {e : Expr}
    (hnames : ∀ name ∈ e.names, admits name) : Ensures cond (scope.evalWithin room e) := by
  induction room generalizing e with
  | zero => exact .error _
  | succ room deeper =>
    induction e with
    | literal value =>
      rw [evalWithin_head rfl]
      exact .ok (h.scalar _ (isComposite_toValue value))
    | identifier name =>
      rw [evalWithin_head rfl]
      exact fun held hheld => h.name name held (hnames name List.mem_cons_self) hheld
    | unary op operand _ =>
      rw [evalWithin_head rfl]
      exact h.unary _ op operand
    | conditional test consequent alternate _ _ _ =>
      simp only [Expr.names, List.mem_append] at hnames
      rw [evalWithin_head rfl, headValue]
      refine (deeper fun name hn => hnames name (.inl (.inl hn))).bind fun value _ => ?_
      split
      · exact deeper fun name hn => hnames name (.inl (.inr hn))
      · exact deeper fun name hn => hnames name (.inr hn)
    | member object property ih =>
      rw [evalWithin_link fun _ => rfl]
      exact (ih hnames).bind fun value hvalue => h.readMember hvalue property
    | index object key ih _ =>
      simp only [Expr.names, List.mem_append] at hnames
      rw [evalWithin_link fun _ => rfl]
      refine (ih fun name hn => hnames name (.inl hn)).bind fun value hvalue => ?_
      exact (deeper fun name hn => hnames name (.inr hn)).bind fun name _ =>
        h.readMember hvalue name.value.text
    | call callee arguments ih _ =>
      simp only [Expr.names, List.mem_append, Expr.mem_argumentNames] at hnames
      rw [evalWithin_link fun _ => rfl]
      refine (ih fun name hn => hnames name (.inl hn)).bind fun value hvalue => ?_
      have harguments := Ensures.mapM fun e he => deeper fun name hn => hnames name (.inr ⟨e, he, hn⟩)
      exact harguments.bind fun values hvalues => h.applyCall hvalue callee hvalues
    | binary op left right ih _ =>
      simp only [Expr.names, List.mem_append] at hnames
      rw [evalWithin_link fun _ => rfl]
      refine (ih fun name hn => hnames name (.inl hn)).bind fun value _ => ?_
      exact (deeper fun name hn => hnames name (.inr hn)).bind fun operand _ =>
        .ok (h.combine op value operand)
    | logical op left right ih _ =>
      simp only [Expr.names, List.mem_append] at hnames
      rw [evalWithin_link fun _ => rfl]
      refine (ih fun name hn => hnames name (.inl hn)).bind fun value hvalue => ?_
      rw [applyLink]
      split
      · exact .ok hvalue
      · exact deeper fun name hn => hnames name (.inr hn)

end Scope

/-! ### Containers are lent -/

/-- A value in use that is lent out of the environment, or owned and no container. -/
inductive Held.ComesFrom (env : Value) : Held → Prop where
  | lent {part} : env.Holds part → ComesFrom env (.lent part)
  | owned {v} : v.isContainer = false → ComesFrom env (.owned v)

namespace Held.ComesFrom

variable {env : Value} {held : Held}

theorem property (h : held.ComesFrom env) (key : String) : (held.property key).ComesFrom env := by
  cases h with
  | @lent object hobject =>
    rcases object.property_cases key with ⟨part, hp, _, hpart⟩ | ⟨made, hp, hmade, _⟩ | hp
    · simp only [Held.property, hp]
      exact .lent (hpart env hobject)
    · simp only [Held.property, hp]
      exact .owned hmade
    · simp only [Held.property, hp]
      exact .owned rfl
  | @owned v hv =>
    refine .owned ?_
    rcases v.property_cases key with ⟨part, _, hcontainer, _⟩ | ⟨made, hp, hmade, _⟩ | hp
    · rw [hv] at hcontainer
      cases hcontainer
    · rw [hp]
      exact hmade
    · rw [hp]
      rfl

theorem lent_of_container (h : held.ComesFrom env) (hcontainer : held.value.isContainer = true) :
    ∃ part, held = .lent part ∧ env.Holds part := by
  cases h with
  | lent hpart => exact ⟨_, rfl, hpart⟩
  | owned hv =>
    rw [Held.value_owned, hv] at hcontainer
    cases hcontainer

theorem call {argument : Held} (h : argument.ComesFrom env) (f : Filter) :
    (f.call argument).ComesFrom env := by
  cases f with
  | id => exact h
  | html => exact .owned rfl
  | uri => exact .owned rfl

theorem preserved (bindings : Bindings) (env : Value) :
    Scope.Preserves ⟨bindings, env⟩ (fun _ => True) (ComesFrom env) where
  scalar v hv := .owned (Value.isComposite_iff.1 hv).1
  name name held _ hheld := by
    unfold Scope.resolve at hheld
    split at hheld
    · cases hheld
      exact .owned rfl
    · split at hheld
      · cases hheld
        exact .lent .itself
      · cases hheld
  property held key h := h.property key
  call function f argument _ _ h := h.call f

end Held.ComesFrom

/-! ### Without the name of the library -/

/-- A value in use that comes from the environment and gives no access to a filter. -/
def Held.Powerless (env : Value) (held : Held) : Prop :=
  held.ComesFrom env ∧ held.value.isCapability = false

theorem Held.Powerless.property {env : Value} (henv : env.isInert = true) {held : Held}
    (h : held.Powerless env) (key : String) : (held.property key).Powerless env := by
  refine ⟨h.1.property key, ?_⟩
  rw [Held.value_property]
  rcases held.value.property_cases key with ⟨part, hp, hcontainer, hpart⟩ | ⟨made, hp, _, hmade⟩ | hp
  · obtain ⟨object, rfl, hobject⟩ := h.1.lent_of_container hcontainer
    rw [hp]
    exact Value.isCapability_of_isInert ((hpart env hobject).isInert henv)
  · rw [hp]
    rw [h.2] at hmade
    exact Bool.eq_false_iff.2 fun hm => Bool.false_ne_true (hmade hm)
  · rw [hp]
    rfl

theorem Held.Powerless.preserved (bindings : Bindings) {env : Value} (henv : env.isInert = true) :
    Scope.Preserves ⟨bindings, env⟩ (· ≠ bindings.filters) (Held.Powerless env) where
  scalar v hv := ⟨.owned (Value.isComposite_iff.1 hv).1, (Value.isComposite_iff.1 hv).2⟩
  name name held hname hheld := by
    rw [Scope.resolve, if_neg hname] at hheld
    split at hheld
    · cases hheld
      exact ⟨.lent .itself, Value.isCapability_of_isInert henv⟩
    · cases hheld
  property held key h := h.property henv key
  call function f argument h hf _ := by
    have hpower := h.2
    rw [hf] at hpower
    cases hpower

theorem Scope.applyCall_powerless {env : Value} {function : Held} (h : function.Powerless env)
    (callee : Expr) (arguments : List Held) :
    applyCall callee function arguments = .error (.notCallable callee) := by
  have hpower := h.2
  unfold applyCall
  split
  · rename_i f hf
    rw [hf] at hpower
    cases hpower
  · rfl

/-! ### Evaluation -/

theorem evaluate_call_fails {bindings : Bindings} {env : Value} (henv : env.isInert = true)
    {callee : Expr} {arguments : List Expr}
    (hnames : bindings.filters ∉ (Expr.call callee arguments).names) :
    ∃ cause, (Expr.call callee arguments).evaluate bindings env = .error cause := by
  cases h : (Expr.call callee arguments).evaluate bindings env with
  | error cause => exact ⟨cause, rfl⟩
  | ok v =>
    obtain ⟨held, hheld, _⟩ := Expr.evaluate_ok h
    simp only [Expr.names, List.mem_append, not_or] at hnames
    rw [maxDepth, Scope.evalWithin_link fun _ => rfl] at hheld
    obtain ⟨function, hfunction, hcall⟩ := bind_ok hheld
    obtain ⟨values, _, hcall⟩ := bind_ok hcall
    have hpowerless := Scope.evalWithin_preserves (Held.Powerless.preserved bindings henv) _
      (fun name hn heq => hnames.1 (heq ▸ hn)) function hfunction
    rw [Scope.applyCall_powerless hpowerless] at hcall
    cases hcall

/-- Every value of an expression is a scalar, the filter library, a filter, or an array or object that is
the environment or a part of it; containers are never built, only lent.  Where no identifier is the
name of the library and the environment holds no filter, no value gives access to one and a call is
always an error. -/
theorem evaluate_provenance (bindings : Bindings) (env : Value) (henv : env.isInert = true) (e : Expr) :
    (∀ v, e.evaluate bindings env = .ok v →
      v.isComposite = false ∨ v.isCapability = true ∨ v.isContainer = true ∧ env.Holds v) ∧
    (∀ held, Scope.evalWithin ⟨bindings, env⟩ maxDepth e = .ok held → held.value.isContainer = true →
      ∃ part, held = .lent part ∧ env.Holds part) ∧
    (bindings.filters ∉ e.names →
      (∀ v, e.evaluate bindings env = .ok v → v.isCapability = false) ∧
      ∀ callee arguments, e = .call callee arguments →
        ∃ cause, e.evaluate bindings env = .error cause) := by
  have hcomes : Ensures (Held.ComesFrom env) (Scope.evalWithin ⟨bindings, env⟩ maxDepth e) :=
    Scope.evalWithin_preserves (Held.ComesFrom.preserved bindings env) maxDepth fun _ _ => trivial
  refine ⟨fun v hv => ?_, fun held hheld => (hcomes held hheld).lent_of_container, fun hnames =>
    ⟨fun v hv => ?_, ?_⟩⟩
  · obtain ⟨held, hheld, rfl⟩ := Expr.evaluate_ok hv
    rcases held.value.kind_cases with hscalar | hcapability | hcontainer
    · exact .inl hscalar
    · exact .inr (.inl hcapability)
    · obtain ⟨part, rfl, hpart⟩ := (hcomes held hheld).lent_of_container hcontainer
      exact .inr (.inr ⟨hcontainer, hpart⟩)
  · obtain ⟨held, hheld, rfl⟩ := Expr.evaluate_ok hv
    have hpowerless := Scope.evalWithin_preserves (Held.Powerless.preserved bindings henv) maxDepth
      (fun name hn heq => hnames (heq ▸ hn)) held hheld
    exact hpowerless.2
  · rintro callee arguments rfl
    exact evaluate_call_fails henv hnames

theorem evaluate_provenance_list :
    let env : Value := .ofJson (.object [("tags", .array [.string "<", .null])])
    let tags : Expr := .member (.identifier "e") "tags"
    env.isInert = true ∧ "r" ∉ tags.names ∧
      tags.evaluate ⟨"r", "e"⟩ env = .ok (.array [.string "<", .null]) ∧
      env.Holds (.array [.string "<", .null]) ∧
      (Expr.call tags []).evaluate ⟨"r", "e"⟩ env = .error (.notCallable tags) ∧
      ∃ cause, (Expr.call tags []).evaluate ⟨"r", "e"⟩ env = .error cause := by
  intro env tags
  have henv : env.isInert = true := Value.isInert_ofJson _
  have hnames : "r" ∉ (Expr.call tags []).names := by decide
  have hvalue : tags.evaluate ⟨"r", "e"⟩ env = .ok (.array [.string "<", .null]) := rfl
  have hholds : env.Holds (.array [.string "<", .null]) := by
    obtain hscalar | hcapability | ⟨_, hholds⟩ := (evaluate_provenance ⟨"r", "e"⟩ env henv tags).1 _ hvalue
    · cases hscalar
    · cases hcapability
    · exact hholds
  have hcall := ((evaluate_provenance ⟨"r", "e"⟩ env henv (.call tags [])).2.2 hnames).2 tags [] rfl
  exact ⟨henv, by decide, hvalue, hholds, rfl, hcall⟩

end TemplateExpr
