/-!
# Computations that may fail

Taking a sequence of two steps apart, invariants of the errors and of the results of a sequence, and what it means
that all results and errors of a computation are known.
-/

namespace TemplateExpr

@[simp] theorem ok_bind (a : α) (next : α → Except ε β) : (Except.ok a >>= next) = next a := rfl

theorem bind_ok {r : Except ε α} {next : α → Except ε β} {b : β} (h : (r >>= next) = .ok b) :
    ∃ a, r = .ok a ∧ next a = .ok b := by
  cases r with
  | error e => cases h
  | ok a => exact ⟨a, rfl, h⟩

theorem bind_error {r : Except ε α} {next : α → Except ε β} {e : ε} (h : (r >>= next) = .error e) :
    r = .error e ∨ ∃ a, r = .ok a ∧ next a = .error e := by
  cases r with
  | error e' => exact .inl (congrArg Except.error (Except.error.inj h))
  | ok a => exact .inr ⟨a, rfl, h⟩

theorem map_ok {r : Except ε α} {f : α → β} {b : β} (h : r.map f = .ok b) : ∃ a, r = .ok a ∧ f a = b := by
  cases r with
  | error e => cases h
  | ok a => exact ⟨a, rfl, Except.ok.inj h⟩

theorem mapError_eq_ok_iff {r : Except ε α} {f : ε → ε'} {a : α} : r.mapError f = .ok a ↔ r = .ok a := by
  cases r with
  | error e => constructor <;> intro h <;> cases h
  | ok b => exact ⟨fun h => congrArg _ (Except.ok.inj h), fun h => congrArg _ (Except.ok.inj h)⟩

/-- All errors of a computation are of a certain sort. -/
def ErrorsIn (sort : ε → Prop) (r : Except ε α) : Prop := ∀ error, r = .error error → sort error

namespace ErrorsIn

theorem ok {sort : ε → Prop} (a : α) : ErrorsIn sort (.ok a) := by
  intro error h
  cases h

theorem error {sort : ε → Prop} {e : ε} (h : sort e) : ErrorsIn sort (.error e : Except ε α) := by
  intro error he
  cases he
  exact h

theorem mono {sort sort' : ε → Prop} {r : Except ε α} (h : ErrorsIn sort r) (hs : ∀ e, sort e → sort' e) :
    ErrorsIn sort' r := fun e he => hs e (h e he)

theorem bind {sort : ε → Prop} {r : Except ε α} {next : α → Except ε β} (h : ErrorsIn sort r)
    (hn : ∀ a, ErrorsIn sort (next a)) : ErrorsIn sort (r >>= next) := by
  cases r with
  | error e => exact .error (h e rfl)
  | ok a => exact hn a

theorem map {sort : ε → Prop} {r : Except ε α} (h : ErrorsIn sort r) (f : α → β) :
    ErrorsIn sort (r.map f) := by
  cases r with
  | error e => exact .error (h e rfl)
  | ok a => exact .ok _

theorem mapError {sort : ε' → Prop} {f : ε → ε'} (h : ∀ e, sort (f e)) (r : Except ε α) :
    ErrorsIn sort (r.mapError f) := by
  cases r with
  | error e => exact .error (h e)
  | ok a => exact .ok a

end ErrorsIn

/-- All results of a computation satisfy a condition. -/
def Ensures (cond : α → Prop) (r : Except ε α) : Prop := ∀ a, r = .ok a → cond a

namespace Ensures

theorem ok {cond : α → Prop} {a : α} (h : cond a) : Ensures cond (.ok a : Except ε α) := by
  intro b hb
  cases hb
  exact h

theorem error {cond : α → Prop} (e : ε) : Ensures cond (.error e) := by
  intro a h
  cases h

theorem bind {cond : α → Prop} {cond' : β → Prop} {r : Except ε α} {next : α → Except ε β}
    (h : Ensures cond r) (hn : ∀ a, cond a → Ensures cond' (next a)) : Ensures cond' (r >>= next) := by
  cases r with
  | error e => exact .error e
  | ok a => exact hn a (h a rfl)

theorem map {cond : α → Prop} {cond' : β → Prop} {r : Except ε α} {f : α → β} (h : Ensures cond r)
    (hf : ∀ a, cond a → cond' (f a)) : Ensures cond' (r.map f) := by
  cases r with
  | error e => exact .error e
  | ok a => exact .ok (hf a (h a rfl))

theorem mapM {cond : β → Prop} {f : α → Except ε β} {as : List α} (h : ∀ a ∈ as, Ensures cond (f a)) :
    Ensures (fun bs => ∀ b ∈ bs, cond b) (as.mapM f) := by
  induction as with
  | nil => exact .ok fun b hb => absurd hb List.not_mem_nil
  | cons a as ih =>
    rw [List.mapM_cons]
    refine (h a List.mem_cons_self).bind fun b hb => ?_
    refine (ih fun a' ha => h a' (List.mem_cons_of_mem _ ha)).bind fun bs hbs => .ok ?_
    intro b' hb'
    rcases List.mem_cons.1 hb' with rfl | hb'
    · exact hb
    · exact hbs b' hb'

end Ensures

/-- A computation has the results and the errors that are said of it, and no others. -/
structure Describes (r : Except ε α) (yields : α → Prop) (fails : ε → Prop) : Prop where
  ok_iff : ∀ a, r = .ok a ↔ yields a
  error_iff : ∀ e, r = .error e ↔ fails e

namespace Describes

variable {r : Except ε α} {yields : α → Prop} {fails : ε → Prop}

theorem ok (h : Describes r yields fails) {a : α} (known : yields a) : r = .ok a := (h.ok_iff a).2 known

theorem error (h : Describes r yields fails) {e : ε} (known : fails e) : r = .error e := (h.error_iff e).2 known

theorem ok_unique (h : Describes r yields fails) {a b : α} (known : yields a) (known' : yields b) : a = b :=
  Except.ok.inj ((h.ok known).symm.trans (h.ok known'))

theorem error_unique (h : Describes r yields fails) {e e' : ε} (known : fails e) (known' : fails e') : e = e' :=
  Except.error.inj ((h.error known).symm.trans (h.error known'))

/-- It is enough to see that the computation follows what is said, and that something is said. -/
theorem of_cases (ok : ∀ a, yields a → r = .ok a) (error : ∀ e, fails e → r = .error e)
    (cases : (∃ a, yields a) ∨ ∃ e, fails e) : Describes r yields fails := by
  constructor
  · intro a
    refine ⟨fun h => ?_, ok a⟩
    obtain ⟨b, known⟩ | ⟨e, known⟩ := cases
    · cases (ok b known).symm.trans h
      exact known
    · cases (error e known).symm.trans h
  · intro e
    refine ⟨fun h => ?_, error e⟩
    obtain ⟨a, known⟩ | ⟨e', known⟩ := cases
    · cases (ok a known).symm.trans h
    · cases (error e' known).symm.trans h
      exact known

end Describes

end TemplateExpr
