import TemplateExpr.Eval
import TemplateExpr.Proofs.NumeralGrammar

/-!
# Operators and primitive forms

Arithmetic and the order of two values depend on their primitive forms only.  Addition and the comparisons take
these first, but the other operators ask a value for its number at once, and a composite has a rule of its own for
that: an array the number of its text, any other composite NaN.  The rules agree because the texts of the other
composites hold a character that no numeral has.
-/

namespace TemplateExpr

/-- A text with a character that is neither a blank nor a part of numerals is NaN. -/
theorem Double.ofText_eq_nan {s : String} {c : Char} (hc : c ∈ s.toList) (no_blank : isNumeralBlank c = false)
    (no_part : isNumeralChar c = false) : ofText s = nan := by
  by_contra number
  obtain ⟨before, body, after, text, hb, ha, numeral⟩ := exists_numeral number
  rw [text, List.mem_append, List.mem_append] at hc
  obtain front | inside | behind := hc
  · exact Bool.eq_false_iff.1 no_blank (hb c front)
  · exact Bool.eq_false_iff.1 no_part (numeral.chars c inside)
  · exact Bool.eq_false_iff.1 no_blank (ha c behind)

namespace Value

theorem ofText_objectText : Double.ofText "[object Object]" = .nan :=
  Double.ofText_eq_nan (c := '[') (by decide) (by decide) (by decide)

theorem ofText_filterText (filter : Filter) : Double.ofText (filterText filter) = .nan := by
  have bracket : '(' ∈ (filterText filter).toList := by
    simp only [filterText, String.toList_append, List.mem_append]
    exact .inr (by decide)
  exact Double.ofText_eq_nan bracket (by decide) (by decide)

theorem toNumber_toPrimitive (v : Value) : v.toPrimitive.toNumber = v.toNumber := by
  cases v with
  | object fields => exact ofText_objectText
  | filters => exact ofText_objectText
  | filter filter => exact ofText_filterText filter
  | array items => rfl
  | undefined => rfl
  | null => rfl
  | bool value => rfl
  | number value => rfl
  | string s => rfl

theorem addValues_toPrimitive (a b : Value) : addValues a.toPrimitive b.toPrimitive = addValues a b := by
  simp only [addValues, toPrimitive_toPrimitive]

theorem compare?_toPrimitive (a b : Value) : a.toPrimitive.compare? b.toPrimitive = a.compare? b := by
  simp only [compare?, toPrimitive_toPrimitive]

end Value

/-- The operators of arithmetic and of order. -/
def numericOperators : List BinaryOp := [.add, .sub, .mul, .div, .rem, .lt, .ltEq, .gt, .gtEq]

/-- Arithmetic and order see a value through its primitive form only, which is never composite and has the same
number and text. -/
theorem operators_see_primitives (a b : Value) :
    (∀ op ∈ numericOperators, op.apply a b = op.apply a.toPrimitive b.toPrimitive) ∧
    (∀ op ∈ [UnaryOp.plus, UnaryOp.negate], op.apply a = op.apply a.toPrimitive) ∧
    a.toPrimitive.toNumber = a.toNumber ∧ a.toPrimitive.text = a.text ∧ a.toPrimitive.isComposite = false := by
  have left := a.toNumber_toPrimitive
  have right := b.toNumber_toPrimitive
  have order := Value.compare?_toPrimitive a b
  refine ⟨fun op hop => ?_, fun op hop => ?_, left, a.text_toPrimitive, a.isComposite_toPrimitive⟩
  · simp only [numericOperators, List.mem_cons, List.not_mem_nil, or_false] at hop
    obtain rfl | rfl | rfl | rfl | rfl | rfl | rfl | rfl | rfl := hop
    case inl => exact (Value.addValues_toPrimitive a b).symm
    all_goals simp only [BinaryOp.apply, left, right, order]
  · simp only [List.mem_cons, List.not_mem_nil, or_false] at hop
    obtain rfl | rfl := hop
    all_goals simp only [UnaryOp.apply, left]

theorem operators_see_primitives_list :
    BinaryOp.mul.apply (.array [.array [.string " 0x10 "]]) .filters =
        BinaryOp.mul.apply (.string " 0x10 ") (.string "[object Object]") ∧
      UnaryOp.plus.apply (.array [.array [.string " 0x10 "]]) = UnaryOp.plus.apply (.string " 0x10 ") := by
  obtain ⟨binary, unary, -⟩ := operators_see_primitives (.array [.array [.string " 0x10 "]]) .filters
  have form : (Value.array [.array [.string " 0x10 "]]).toPrimitive = .string " 0x10 " := by
    simp [Value.toPrimitive, Value.isComposite, Value.text, Value.itemTexts, Value.isNullish]
  have library : Value.filters.toPrimitive = .string "[object Object]" := rfl
  have product := binary .mul (by decide)
  have number := unary .plus (by decide)
  rw [form, library] at product
  rw [form] at number
  exact ⟨product, number⟩

end TemplateExpr
