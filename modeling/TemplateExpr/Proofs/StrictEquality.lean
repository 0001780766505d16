import Mathlib.Data.List.Forall2
import TemplateExpr.Proofs.Provenance

/-!
# Strict equality

Strict equality is symmetric and transitive, and a value equals itself unless it holds a NaN somewhere.  It
does not tell 0 from -0, so equal values need not be the same; but they have one text, one truth and one type,
and what equals the one equals the other.

Containers are compared part by part, so every law of values is that law for numbers, carried through arrays
and objects by an induction on the first value.
-/

namespace TemplateExpr

/-! ### Numbers -/

namespace Double

theorem equals_trans {x y z : Double} (h : x.equals y) (h' : y.equals z) : x.equals z := by
  obtain ⟨i, hx, hy⟩ := equals_iff.1 h
  obtain ⟨j, hy', hz⟩ := equals_iff.1 h'
  cases hy.symm.trans hy'
  exact equals_iff.2 ⟨i, hx, hz⟩

theorem equals_self_iff {x : Double} : x.equals x ↔ x ≠ nan := by
  rw [equals_iff]
  cases x <;> simp [place?]

/-- Equal numbers are the same, or zeros that may differ in sign. -/
theorem equals_cases {x y : Double} (h : x.equals y) : x = y ∨ x.isZero ∧ y.isZero := by
  obtain ⟨i, hx, hy⟩ := equals_iff.1 h
  cases x with
  | nan => cases hx
  | signed negative rank _ =>
    cases y with
    | nan => cases hy
    | signed negative' rank' _ =>
      simp only [place?, Option.some.injEq] at hx hy
      simp only [isZero, beq_iff_eq, signed.injEq]
      cases negative <;> cases negative' <;> simp at hx hy ⊢ <;> omega

theorem textChars_of_isZero {x : Double} (h : x.isZero) : x.textChars = ['0'] := by
  cases x with
  | nan => cases h
  | signed negative rank _ =>
    rw [isZero, beq_iff_eq] at h
    subst h
    rfl

theorem text_of_equals {x y : Double} (h : x.equals y) : x.text = y.text := by
  obtain rfl | ⟨hx, hy⟩ := equals_cases h
  · rfl
  · rw [text, text, textChars_of_isZero hx, textChars_of_isZero hy]

end Double

/-! ### Lists compared item by item -/

theorem forall₂_imp_mem {R S : α → β → Prop} {s : List α} {t : List β} (h : List.Forall₂ R s t)
    (hRS : ∀ a ∈ s, ∀ b, R a b → S a b) : List.Forall₂ S s t :=
  ((List.forall₂_and_left s t).2 ⟨hRS, h⟩).imp fun _ b both => both.1 b both.2

theorem forall₂_trans_mem {R : α → α → Prop} {s t u : List α} (h : List.Forall₂ R s t)
    (h' : List.Forall₂ R t u) (trans : ∀ a ∈ s, ∀ b c, R a b → R b c → R a c) : List.Forall₂ R s u := by
  induction h generalizing u with
  | nil =>
    cases h'
    exact .nil
  | cons first _ ih =>
    cases h' with
    | cons second rest =>
      exact .cons (trans _ List.mem_cons_self _ _ first second)
        (ih rest fun a ha => trans a (List.mem_cons_of_mem _ ha))

namespace Value

/-! ### What a value can equal -/

/-- Whether a value is neither a number nor a container: it equals nothing but itself. -/
def isAtom : Value → Bool
  | number _ | array _ | object _ => false
  | _ => true

/-- The same key with equal values. -/
def EqualFields (f g : String × Value) : Prop := f.1 = g.1 ∧ f.2.strictEquals g.2

theorem strictEqualItems_iff {s t : List Value} :
    strictEqualItems s t ↔ List.Forall₂ (fun a b => a.strictEquals b) s t := by
  induction s generalizing t with
  | nil => cases t <;> simp [strictEqualItems]
  | cons a s ih => cases t <;> simp [strictEqualItems, ih]

theorem strictEqualFields_iff {bound bound' : Option String} {s : Fields Value bound} {t : Fields Value bound'} :
    strictEqualFields s t ↔ List.Forall₂ EqualFields s.toList t.toList := by
  induction s generalizing bound' with
  | nil => cases t <;> simp [strictEqualFields]
  | cons key above a s ih => cases t <;> simp [strictEqualFields, EqualFields, ih]

section

variable {v w : Value}

theorem strictEquals_atom (h : v.isAtom) : v.strictEquals w ↔ v = w := by
  cases v with
  | number x => cases h
  | array s => cases h
  | object s => cases h
  | _ => cases w <;> simp [strictEquals]

theorem strictEquals_number {x : Double} : (number x).strictEquals w ↔ ∃ y, w = number y ∧ x.equals y := by
  cases w <;> simp [strictEquals]

theorem strictEquals_array {s : List Value} :
    (array s).strictEquals w ↔ ∃ t, w = array t ∧ List.Forall₂ (fun a b => a.strictEquals b) s t := by
  cases w <;> simp [strictEquals, strictEqualItems_iff]

theorem strictEquals_object {s : Fields Value none} :
    (object s).strictEquals w ↔ ∃ t, w = object t ∧ List.Forall₂ EqualFields s.toList t.toList := by
  cases w <;> simp [strictEquals, strictEqualFields_iff]

end

/-! ### Symmetry and transitivity -/

theorem strictEquals_symm {a b : Value} (h : a.strictEquals b) : b.strictEquals a := by
  -- On the first value alone: the second has its shape, so the parts come in pairs.
  induction a generalizing b with
  | number x =>
    obtain ⟨y, rfl, same⟩ := strictEquals_number.1 h
    exact strictEquals_number.2 ⟨x, rfl, Double.equals_comm x y ▸ same⟩
  | array s ih =>
    obtain ⟨t, rfl, same⟩ := strictEquals_array.1 h
    exact strictEquals_array.2 ⟨s, rfl, (forall₂_imp_mem same fun a ha b => ih a ha).flip⟩
  | object s ih =>
    obtain ⟨t, rfl, same⟩ := strictEquals_object.1 h
    refine strictEquals_object.2 ⟨s, rfl, (forall₂_imp_mem same fun f hf g hfg => ?_).flip⟩
    exact ⟨hfg.1.symm, ih f hf hfg.2⟩
  | _ =>
    cases (strictEquals_atom rfl).1 h
    exact h

theorem strictEquals_comm (a b : Value) : a.strictEquals b = b.strictEquals a :=
  Bool.eq_iff_iff.2 ⟨strictEquals_symm, strictEquals_symm⟩

theorem strictEquals_trans {a b c : Value} (h : a.strictEquals b) (h' : b.strictEquals c) :
    a.strictEquals c := by
  induction a generalizing b c with
  | number x =>
    obtain ⟨y, rfl, same⟩ := strictEquals_number.1 h
    obtain ⟨z, rfl, same'⟩ := strictEquals_number.1 h'
    exact strictEquals_number.2 ⟨z, rfl, Double.equals_trans same same'⟩
  | array s ih =>
    obtain ⟨t, rfl, same⟩ := strictEquals_array.1 h
    obtain ⟨u, rfl, same'⟩ := strictEquals_array.1 h'
    exact strictEquals_array.2 ⟨u, rfl, forall₂_trans_mem same same' fun a ha b c => ih a ha⟩
  | object s ih =>
    obtain ⟨t, rfl, same⟩ := strictEquals_object.1 h
    obtain ⟨u, rfl, same'⟩ := strictEquals_object.1 h'
    refine strictEquals_object.2 ⟨u, rfl, forall₂_trans_mem same same' fun f hf g k hfg hgk => ?_⟩
    exact ⟨hfg.1.trans hgk.1, ih f hf hfg.2 hgk.2⟩
  | _ =>
    cases (strictEquals_atom rfl).1 h
    exact h'

theorem strictEquals_congr {a b : Value} (h : a.strictEquals b) (c : Value) :
    a.strictEquals c = b.strictEquals c :=
  Bool.eq_iff_iff.2 ⟨strictEquals_trans (strictEquals_symm h), strictEquals_trans h⟩

/-! ### Values that equal themselves -/

theorem Holds.trans {whole part inner : Value} (h : whole.Holds part) (h' : part.Holds inner) :
    whole.Holds inner := by
  induction h' with
  | itself => exact h
  | item _ mem ih => exact .item ih mem
  | field _ mem ih => exact .field ih mem

theorem holds_atom {v part : Value} (h : v.isContainer = false) : v.Holds part ↔ part = v := by
  constructor
  · intro held
    induction held with
    | itself => rfl
    | item _ _ ih =>
      cases ih
      cases h
    | field _ _ ih =>
      cases ih
      cases h
  · rintro rfl
    exact .itself

theorem holds_array {items : List Value} {part : Value} :
    (array items).Holds part ↔ part = array items ∨ ∃ item ∈ items, item.Holds part := by
  constructor
  · intro held
    induction held with
    | itself => exact .inl rfl
    | item _ mem ih =>
      obtain same | ⟨item, hitem, within⟩ := ih
      · cases same
        exact .inr ⟨_, mem, .itself⟩
      · exact .inr ⟨item, hitem, .item within mem⟩
    | field _ mem ih =>
      obtain same | ⟨item, hitem, within⟩ := ih
      · cases same
      · exact .inr ⟨item, hitem, .field within mem⟩
  · rintro (rfl | ⟨item, hitem, within⟩)
    · exact .itself
    · exact .trans (.item .itself hitem) within

theorem holds_object {fields : Fields Value none} {part : Value} :
    (object fields).Holds part ↔ part = object fields ∨ ∃ field ∈ fields.toList, field.2.Holds part := by
  constructor
  · intro held
    induction held with
    | itself => exact .inl rfl
    | item _ mem ih =>
      obtain same | ⟨field, hfield, within⟩ := ih
      · cases same
      · exact .inr ⟨field, hfield, .item within mem⟩
    | field _ mem ih =>
      obtain same | ⟨field, hfield, within⟩ := ih
      · cases same
        exact .inr ⟨_, mem, .itself⟩
      · exact .inr ⟨field, hfield, .field within mem⟩
  · rintro (rfl | ⟨field, hfield, within⟩)
    · exact .itself
    · exact .trans (.field .itself hfield) within

theorem strictEquals_self_iff {v : Value} : v.strictEquals v ↔ ¬ v.Holds (number .nan) := by
  induction v with
  | number x =>
    rw [holds_atom rfl, strictEquals, Double.equals_self_iff, number.injEq, eq_comm]
  | array items ih =>
    rw [strictEquals, strictEqualItems_iff, List.forall₂_same, holds_array]
    simp only [reduceCtorEq, false_or, not_exists, not_and]
    exact forall₂_congr ih
  | object fields ih =>
    rw [strictEquals, strictEqualFields_iff, List.forall₂_same, holds_object]
    simp only [EqualFields, true_and, reduceCtorEq, false_or, not_exists, not_and]
    exact forall₂_congr ih
  | _ =>
    rw [holds_atom rfl]
    exact iff_of_true ((strictEquals_atom rfl).2 rfl) nofun

/-! ### What equal values share -/

theorem itemTexts_eq {s t : List Value}
    (h : List.Forall₂ (fun a b => a.isNullish = b.isNullish ∧ a.text = b.text) s t) :
    itemTexts s = itemTexts t := by
  induction h with
  | nil => rfl
  | cons first _ ih => rw [itemTexts, itemTexts, first.1, first.2, ih]

theorem isNullish_of_strictEquals {a b : Value} (h : a.strictEquals b) : a.isNullish = b.isNullish := by
  cases a <;> cases b <;> first | rfl | cases h

theorem text_of_strictEquals {a b : Value} (h : a.strictEquals b) : a.text = b.text := by
  induction a generalizing b with
  | number x =>
    obtain ⟨y, rfl, same⟩ := strictEquals_number.1 h
    exact Double.text_of_equals same
  | array s ih =>
    obtain ⟨t, rfl, same⟩ := strictEquals_array.1 h
    rw [text, text, itemTexts_eq (forall₂_imp_mem same fun a ha b equal =>
      ⟨isNullish_of_strictEquals equal, ih a ha equal⟩)]
  | object s ih =>
    obtain ⟨t, rfl, same⟩ := strictEquals_object.1 h
    rfl
  | _ =>
    cases (strictEquals_atom rfl).1 h
    rfl

theorem isTruthy_of_strictEquals {a b : Value} (h : a.strictEquals b) : a.isTruthy = b.isTruthy := by
  cases a with
  | number x =>
    obtain ⟨y, rfl, same⟩ := strictEquals_number.1 h
    obtain rfl | ⟨hx, hy⟩ := Double.equals_cases same
    · rfl
    · rw [isTruthy, isTruthy, hx, hy]
      rfl
  | array s =>
    obtain ⟨t, rfl, -⟩ := strictEquals_array.1 h
    rfl
  | object s =>
    obtain ⟨t, rfl, -⟩ := strictEquals_object.1 h
    rfl
  | _ =>
    cases (strictEquals_atom rfl).1 h
    rfl

theorem typeName_of_strictEquals {a b : Value} (h : a.strictEquals b) : a.typeName = b.typeName := by
  cases a <;> cases b <;> first | rfl | cases h

/-- Strict equality is symmetric and transitive, and a value equals itself just if no NaN is among its parts, at
any depth.  Equal values have the same text, the same truth and the same type, and equal the same third
values from either side. -/
theorem strictEquals_is_partial_equivalence :
    (∀ a b : Value, a.strictEquals b = b.strictEquals a) ∧
    (∀ a b c : Value, a.strictEquals b → b.strictEquals c → a.strictEquals c) ∧
    (∀ v : Value, v.strictEquals v ↔ ¬ v.Holds (number .nan)) ∧
    ∀ a b : Value, a.strictEquals b →
      a.text = b.text ∧ a.isTruthy = b.isTruthy ∧ a.typeName = b.typeName ∧
        ∀ c : Value, a.strictEquals c = b.strictEquals c ∧ c.strictEquals a = c.strictEquals b := by
  refine ⟨strictEquals_comm, fun a b c => strictEquals_trans, fun v => strictEquals_self_iff, ?_⟩
  intro a b equal
  refine ⟨text_of_strictEquals equal, isTruthy_of_strictEquals equal, typeName_of_strictEquals equal, ?_⟩
  intro c
  have left : a.strictEquals c = b.strictEquals c := strictEquals_congr equal c
  exact ⟨left, by rw [strictEquals_comm c a, strictEquals_comm c b, left]⟩

theorem strictEquals_is_partial_equivalence_zeros :
    let zeros : Value := .array [.number .zero, .string "a"]
    let negated : Value := .array [.number Double.zero.neg, .string "a"]
    zeros ≠ negated ∧ zeros.strictEquals negated ∧ negated.strictEquals zeros ∧ zeros.strictEquals zeros ∧
      zeros.text = negated.text := by
  intro zeros negated
  obtain ⟨symmetric, transitive, -, congruent⟩ := strictEquals_is_partial_equivalence
  have equal : zeros.strictEquals negated := rfl
  have mirrored : negated.strictEquals zeros := (symmetric negated zeros).trans equal
  have apart : zeros ≠ negated := by
    intro same
    injection same with same
    injection same with same
    injection same with same
    exact absurd same (by decide)
  exact ⟨apart, equal, mirrored, transitive _ _ _ equal mirrored, (congruent _ _ equal).1⟩

end Value

end TemplateExpr
