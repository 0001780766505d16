import TemplateExpr.Proofs.StrictEquality

/-!
# Loose equality

Loose equality goes from pair to pair until one of them is settled.  At most two other pairs take the place of
the first one, and the pairs of `a` and `b` need not be those of `b` and `a`: of two booleans the left one gives
way first.  What the last pair settles is nevertheless the same for both, since it depends on the primitive
forms of the first pair alone (`looseEquals_eq`).
-/

namespace TemplateExpr

namespace Value

/-! ### Steps and runs -/

/-- A run of loose equality: how many other pairs take the place of two values, and what the last one
settles. -/
inductive LooseRun : Value → Value → Nat → Bool → Prop where
  | settled {a b equal} (step : looseStep a b = .settled equal) : LooseRun a b 0 equal
  | instead {a b a' b' n equal} (step : looseStep a b = .instead a' b') (rest : LooseRun a' b' n equal) :
    LooseRun a b (n + 1) equal

section

variable {a b a' b' : Value}

theorem looseEquals_of_settled {equal : Bool} (h : looseStep a b = .settled equal) :
    a.looseEquals b = equal := by
  rw [looseEquals]
  split
  · rename_i step
    cases step.symm.trans h
    rfl
  · rename_i step
    cases step.symm.trans h

theorem looseEquals_of_instead (h : looseStep a b = .instead a' b') :
    a.looseEquals b = a'.looseEquals b' := by
  rw [looseEquals]
  split
  · rename_i step
    cases step.symm.trans h
  · rename_i step
    cases step.symm.trans h
    rfl

end

theorem looseRun_looseEquals (a b : Value) :
    ∃ n ≤ a.looseRank + b.looseRank, LooseRun a b n (a.looseEquals b) := by
  induction a, b using looseEquals.induct with
  | case1 a b equal step =>
    rw [looseEquals_of_settled step]
    exact ⟨0, Nat.zero_le _, .settled step⟩
  | case2 a b a' b' step ih =>
    obtain ⟨n, hn, run⟩ := ih
    have fewer := looseRank_decreases step
    rw [looseEquals_of_instead step]
    exact ⟨n + 1, by omega, .instead step run⟩

theorem looseRank_le_one (v : Value) : v.looseRank ≤ 1 := by
  cases v with
  | bool p => exact Nat.le_refl 1
  | _ => exact Bool.toNat_le _

/-! ### What settles a pair -/

/-- Equality of primitive forms: two strings by their characters, anything else by its number. -/
def primitiveEquals : Value → Value → Bool
  | string s, string t => s == t
  | p, q => p.toNumber.equals q.toNumber

/-- Loose equality without steps: undefined and null equal each other only, composites are compared strictly,
and everything else by primitive form. -/
def equalByForm (a b : Value) : Bool :=
  if a.isNullish || b.isNullish then a.isNullish && b.isNullish
  else if a.isComposite && b.isComposite then a.strictEquals b
  else primitiveEquals a.toPrimitive b.toPrimitive

theorem primitiveEquals_comm (p q : Value) : primitiveEquals p q = primitiveEquals q p := by
  unfold primitiveEquals
  split
  · exact Bool.beq_comm
  · rename_i apart
    split
    · rename_i s t
      exact absurd rfl (apart t s rfl)
    · exact Double.equals_comm _ _

theorem equalByForm_comm (a b : Value) : equalByForm a b = equalByForm b a := by
  unfold equalByForm
  rw [Bool.or_comm, Bool.and_comm, Bool.and_comm a.isComposite, strictEquals_comm, primitiveEquals_comm]

theorem equalByForm_bool_left (p : Bool) (b : Value) :
    equalByForm (number (bool p).toNumber) b = equalByForm (bool p) b := by
  cases b <;> simp [equalByForm, isNullish, isComposite, toPrimitive, primitiveEquals, toNumber]

theorem equalByForm_bool_right (a : Value) (q : Bool) :
    equalByForm a (number (bool q).toNumber) = equalByForm a (bool q) := by
  rw [equalByForm_comm, equalByForm_bool_left, equalByForm_comm]

theorem isNullish_toPrimitive (v : Value) : v.toPrimitive.isNullish = v.isNullish := by
  cases v <;> rfl

theorem equalByForm_toPrimitive {a b : Value} (h : (a.isComposite && b.isComposite) = false) :
    equalByForm a.toPrimitive b.toPrimitive = equalByForm a b := by
  simp only [equalByForm, isNullish_toPrimitive, isComposite_toPrimitive, toPrimitive_toPrimitive, h,
    Bool.false_and, Bool.false_eq_true, if_false]

/-- What a step comes to, without the steps behind it. -/
def LooseStep.outcome : LooseStep → Bool
  | settled equal => equal
  | instead a b => equalByForm a b

-- The one place where the steps are looked into: each of them keeps what the pair comes to.
theorem outcome_looseStep (a b : Value) : (looseStep a b).outcome = equalByForm a b := by
  unfold looseStep
  split
  · rename_i nullish
    rw [equalByForm, if_pos nullish]
    rfl
  · rename_i present
    split
    · rfl
    · rfl
    · exact equalByForm_bool_left _ b
    · exact equalByForm_bool_right a _
    · split
      · rename_i apart
        refine equalByForm_toPrimitive ?_
        cases composite : a.isComposite <;> simp_all
      · rename_i notMixed notMixed' notBool notBool' alike
        cases a <;> cases b <;>
          simp_all [LooseStep.outcome, equalByForm, isNullish, isComposite, primitiveEquals, toPrimitive,
            strictEquals, toNumber]

theorem looseEquals_eq (a b : Value) : a.looseEquals b = equalByForm a b := by
  induction a, b using looseEquals.induct with
  | case1 a b equal step =>
    rw [looseEquals_of_settled step, ← outcome_looseStep, step]
    rfl
  | case2 a b a' b' step ih =>
    rw [looseEquals_of_instead step, ih, ← outcome_looseStep a b, step]
    rfl

/-! ### Strict and loose equality -/

/-- Two strings, two numbers, two booleans or two composites. -/
inductive OfOneKind : Value → Value → Prop where
  | strings (s t : String) : OfOneKind (string s) (string t)
  | numbers (x y : Double) : OfOneKind (number x) (number y)
  | booleans (p q : Bool) : OfOneKind (bool p) (bool q)
  | composites {a b : Value} (left : a.isComposite) (right : b.isComposite) : OfOneKind a b

variable {a b : Value}

theorem isNullish_of_isComposite {v : Value} (h : v.isComposite) : v.isNullish = false := by
  cases v <;> first | rfl | cases h

theorem looseEquals_of_oneKind (h : OfOneKind a b) : a.looseEquals b = a.strictEquals b := by
  rw [looseEquals_eq]
  cases h with
  | strings s t => rfl
  | numbers x y => rfl
  | booleans p q => cases p <;> cases q <;> decide +kernel
  | composites left right =>
    rw [equalByForm, isNullish_of_isComposite left, isNullish_of_isComposite right, left, right]
    rfl

theorem looseEquals_of_strictEquals (h : a.strictEquals b) : a.looseEquals b := by
  have kind : OfOneKind a b ∨ a.isNullish ∧ b = a := by
    cases a with
    | undefined => exact .inr ⟨rfl, ((strictEquals_atom rfl).1 h).symm⟩
    | null => exact .inr ⟨rfl, ((strictEquals_atom rfl).1 h).symm⟩
    | number x =>
      obtain ⟨y, rfl, -⟩ := strictEquals_number.1 h
      exact .inl (.numbers x y)
    | array s =>
      obtain ⟨t, rfl, -⟩ := strictEquals_array.1 h
      exact .inl (.composites rfl rfl)
    | object s =>
      obtain ⟨t, rfl, -⟩ := strictEquals_object.1 h
      exact .inl (.composites rfl rfl)
    | bool p =>
      cases (strictEquals_atom rfl).1 h
      exact .inl (.booleans p p)
    | string s =>
      cases (strictEquals_atom rfl).1 h
      exact .inl (.strings s s)
    | _ =>
      cases (strictEquals_atom rfl).1 h
      exact .inl (.composites rfl rfl)
  obtain kind | ⟨nullish, rfl⟩ := kind
  · rw [looseEquals_of_oneKind kind]
    exact h
  · rw [looseEquals_eq, equalByForm, nullish]
    rfl

/-- Loose equality comes to an end after at most two other pairs, with the same answer for two values in either
order.  It holds of values that are strictly equal, and is the same as strict equality between two strings, two
numbers, two booleans or two composites. -/
theorem looseEquals_coherent (a b : Value) :
    (∃ n ≤ 2, LooseRun a b n (a.looseEquals b)) ∧ a.looseEquals b = b.looseEquals a ∧
      (a.strictEquals b → a.looseEquals b) ∧ (OfOneKind a b → a.looseEquals b = a.strictEquals b) := by
  refine ⟨?_, ?_, looseEquals_of_strictEquals, looseEquals_of_oneKind⟩
  · obtain ⟨n, hn, run⟩ := looseRun_looseEquals a b
    have ha := looseRank_le_one a
    have hb := looseRank_le_one b
    exact ⟨n, by omega, run⟩
  · rw [looseEquals_eq, looseEquals_eq, equalByForm_comm]

theorem looseEquals_coherent_coerced :
    let written : Value := .array [string "1"]
    let counted : Value := .array [number (.ofNat 1)]
    ((∃ n ≤ 2, LooseRun written (bool true) n true) ∧ (bool true).looseEquals written) ∧
      ((number .zero).strictEquals (number Double.zero.neg) ∧ (number .zero).looseEquals (number Double.zero.neg)) ∧
      OfOneKind written counted ∧ written.looseEquals counted = false := by
  intro written counted
  have coerced : written.looseEquals (bool true) = true := by
    rw [looseEquals_eq]
    decide +kernel
  obtain ⟨run, mirrored, -, -⟩ := looseEquals_coherent written (bool true)
  obtain ⟨-, -, loose, -⟩ := looseEquals_coherent (number .zero) (number Double.zero.neg)
  obtain ⟨-, -, -, alike⟩ := looseEquals_coherent written counted
  rw [coerced] at run mirrored
  have equal : (number .zero).strictEquals (number Double.zero.neg) := rfl
  have kind : OfOneKind written counted := .composites rfl rfl
  exact ⟨⟨run, mirrored.symm⟩, ⟨equal, loose equal⟩, kind, alike kind⟩

end Value

end TemplateExpr
