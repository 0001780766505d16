import Mathlib.Logic.ExistsUnique
import TemplateExpr.Proofs.LooseEquality

/-!
# The order of values

Two values are compared by their primitive forms: strings by their UTF-16 units, everything else by number.
Where neither counts as NaN, exactly one of less, equal and greater is the case, and the four operators agree
with it and with each other; where one does, all four fail.  On strings the order is the lexicographic one of
the units, which is total since no two texts have the same units.
-/

namespace TemplateExpr

/-! ### Units -/

namespace Utf16

theorem units_injective {s t : List Char} (h : units s = units t) : s = t := by
  rw [← decode_units s, h, decode_units]

theorem compareUnits_swap (s t : List Nat) : compareUnits t s = (compareUnits s t).swap := by
  induction s generalizing t with
  | nil => cases t <;> rfl
  | cons a s ih =>
    cases t with
    | nil => rfl
    | cons b t =>
      rw [compareUnits, compareUnits, ih]
      obtain less | rfl | greater := Nat.lt_trichotomy a b
      · rw [if_neg (Nat.lt_asymm less), if_pos less, if_pos less]
        rfl
      · simp only [Nat.lt_irrefl, if_false]
      · rw [if_pos greater, if_neg (Nat.lt_asymm greater), if_pos greater]
        rfl

theorem compareUnits_eq_lt_iff {s t : List Nat} : compareUnits s t = .lt ↔ s < t := by
  induction s generalizing t with
  | nil => cases t <;> simp [compareUnits]
  | cons a s ih =>
    cases t with
    | nil => simp [compareUnits]
    | cons b t =>
      rw [compareUnits, List.cons_lt_cons_iff, ← ih]
      split
      · simp [*]
      · split
        · simp
          omega
        · have same : a = b := by omega
          simp [same]

theorem compareUnits_eq_eq_iff {s t : List Nat} : compareUnits s t = .eq ↔ s = t := by
  induction s generalizing t with
  | nil => cases t <;> simp [compareUnits]
  | cons a s ih =>
    cases t with
    | nil => simp [compareUnits]
    | cons b t =>
      rw [compareUnits, List.cons.injEq, ← ih]
      split
      · simp
        omega
      · split
        · simp
          omega
        · have same : a = b := by omega
          simp [same]

theorem compareStrings_swap (s t : String) : compareStrings t s = (compareStrings s t).swap :=
  compareUnits_swap _ _

theorem compareStrings_eq_lt_iff {s t : String} :
    compareStrings s t = .lt ↔ units s.toList < units t.toList := compareUnits_eq_lt_iff

theorem compareStrings_eq_eq_iff {s t : String} : compareStrings s t = .eq ↔ s = t := by
  rw [compareStrings, compareUnits_eq_eq_iff]
  constructor
  · intro h
    exact String.toList_injective (units_injective h)
  · rintro rfl
    rfl

end Utf16

/-! ### Numbers -/

namespace Double

theorem compare?_swap (x y : Double) : y.compare? x = (x.compare? y).map Ordering.swap := by
  unfold compare?
  cases x.place? <;> cases y.place? <;> simp [Int.compare_swap]

theorem place?_eq_none_iff {x : Double} : x.place? = none ↔ x = nan := by
  cases x <;> simp [place?]

theorem compare?_eq_none_iff {x y : Double} : x.compare? y = none ↔ x = nan ∨ y = nan := by
  rw [← place?_eq_none_iff, ← place?_eq_none_iff]
  unfold compare?
  cases x.place? <;> cases y.place? <;> simp

theorem compare?_eq_eq_iff {x y : Double} : x.compare? y = some .eq ↔ x.equals y := by
  unfold compare? equals
  cases x.place? <;> cases y.place? <;> simp

end Double

/-! ### Values -/

namespace Value

/-- Whether two values have an order: as two strings, or as two numbers of which neither is NaN. -/
def Comparable (a b : Value) : Prop :=
  (∃ s t, a.toPrimitive = string s ∧ b.toPrimitive = string t) ∨
    (a.toPrimitive.toNumber ≠ .nan ∧ b.toPrimitive.toNumber ≠ .nan)

/-- In which order the operators say that two values stand; they are equal in the order if their primitive
forms are. -/
def Stands (a b : Value) : Ordering → Prop
  | .lt => BinaryOp.lt.apply a b = .bool true
  | .eq => primitiveEquals a.toPrimitive b.toPrimitive
  | .gt => BinaryOp.gt.apply a b = .bool true

/-- The order of primitive forms. -/
theorem compare?_cases (a b : Value) :
    (∃ s t, a.toPrimitive = string s ∧ b.toPrimitive = string t ∧
      a.compare? b = some (Utf16.compareStrings s t) ∧
      primitiveEquals a.toPrimitive b.toPrimitive = (s == t)) ∨
    ((¬ ∃ s t, a.toPrimitive = string s ∧ b.toPrimitive = string t) ∧
      a.compare? b = a.toPrimitive.toNumber.compare? b.toPrimitive.toNumber ∧
      primitiveEquals a.toPrimitive b.toPrimitive =
        a.toPrimitive.toNumber.equals b.toPrimitive.toNumber) := by
  by_cases strings : ∃ s t, a.toPrimitive = string s ∧ b.toPrimitive = string t
  · obtain ⟨s, t, left, right⟩ := strings
    exact .inl ⟨s, t, left, right, by rw [compare?, left, right], by rw [left, right, primitiveEquals]⟩
  · refine .inr ⟨strings, ?_, ?_⟩
    · unfold compare?
      split
      · exact absurd ⟨_, _, ‹_›, ‹_›⟩ strings
      · rfl
    · unfold primitiveEquals
      split
      · exact absurd ⟨_, _, ‹_›, ‹_›⟩ strings
      · rfl

theorem compare?_swap (a b : Value) : b.compare? a = (a.compare? b).map Ordering.swap := by
  obtain ⟨s, t, left, right, order, -⟩ | ⟨apart, order, -⟩ := compare?_cases a b
  · have mirrored : b.compare? a = some (Utf16.compareStrings t s) := by rw [compare?, left, right]
    rw [mirrored, order, Utf16.compareStrings_swap s t]
    rfl
  · obtain ⟨t, s, right, left, -⟩ | ⟨-, mirrored, -⟩ := compare?_cases b a
    · exact absurd ⟨s, t, left, right⟩ apart
    · rw [mirrored, order, Double.compare?_swap]

theorem compare?_eq_none_iff {a b : Value} : a.compare? b = none ↔ ¬ Comparable a b := by
  obtain ⟨s, t, left, right, order, -⟩ | ⟨apart, order, -⟩ := compare?_cases a b
  · have comparable : Comparable a b := .inl ⟨s, t, left, right⟩
    rw [order]
    exact iff_of_false nofun (not_not_intro comparable)
  · rw [order, Double.compare?_eq_none_iff, Comparable, or_iff_right apart]
    tauto

theorem compare?_eq_eq_iff {a b : Value} :
    a.compare? b = some .eq ↔ primitiveEquals a.toPrimitive b.toPrimitive := by
  obtain ⟨s, t, -, -, order, equal⟩ | ⟨-, order, equal⟩ := compare?_cases a b
  · rw [order, equal, Option.some.injEq, Utf16.compareStrings_eq_eq_iff, beq_iff_eq]
  · rw [order, equal, Double.compare?_eq_eq_iff]

theorem stands_iff {a b : Value} {order : Ordering} : Stands a b order ↔ a.compare? b = some order := by
  cases order with
  | eq => exact compare?_eq_eq_iff.symm
  | _ => simp [Stands, BinaryOp.apply]

theorem apply_gt_swap (a b : Value) : BinaryOp.lt.apply a b = BinaryOp.gt.apply b a := by
  rw [BinaryOp.apply, BinaryOp.apply, compare?_swap a b]
  obtain _ | order := a.compare? b
  · rfl
  · cases order <;> rfl

theorem apply_gtEq_swap (a b : Value) : BinaryOp.ltEq.apply a b = BinaryOp.gtEq.apply b a := by
  rw [BinaryOp.apply, BinaryOp.apply, compare?_swap a b]
  obtain _ | order := a.compare? b
  · rfl
  · cases order <;> rfl

theorem exists_unique_stands {a b : Value} (h : Comparable a b) : ∃! order, Stands a b order := by
  have comparable : a.compare? b ≠ none := fun none => compare?_eq_none_iff.1 none h
  obtain ⟨order, some⟩ := Option.ne_none_iff_exists'.1 comparable
  refine ⟨order, stands_iff.2 some, fun other stands => ?_⟩
  exact Option.some.inj ((stands_iff.1 stands).symm.trans some)

theorem apply_ltEq_of_comparable {a b : Value} (h : Comparable a b) :
    BinaryOp.ltEq.apply a b = UnaryOp.not.apply (BinaryOp.gt.apply a b) := by
  obtain ⟨order, stands, -⟩ := exists_unique_stands h
  rw [BinaryOp.apply, BinaryOp.apply, stands_iff.1 stands]
  cases order <;> rfl

theorem apply_of_not_comparable {a b : Value} (h : ¬ Comparable a b) {op : BinaryOp}
    (hop : op ∈ [BinaryOp.lt, BinaryOp.ltEq, BinaryOp.gt, BinaryOp.gtEq]) : op.apply a b = .bool false := by
  have none : a.compare? b = none := compare?_eq_none_iff.2 h
  simp only [List.mem_cons, List.not_mem_nil, or_false] at hop
  obtain rfl | rfl | rfl | rfl := hop <;> rw [BinaryOp.apply, none] <;> rfl

/-- Whether one string is less than another. -/
def Less (s t : String) : Prop := BinaryOp.lt.apply (string s) (string t) = .bool true

theorem less_iff {s t : String} : Less s t ↔ Utf16.units s.toList < Utf16.units t.toList := by
  have order : (string s).compare? (string t) = some (Utf16.compareStrings s t) := rfl
  have stands : Stands (string s) (string t) .lt ↔ _ := stands_iff
  rw [order, Option.some.injEq, Utf16.compareStrings_eq_lt_iff] at stands
  exact stands

/-- The relational operators agree with each other: `a < b` is `b > a` and `a <= b` is `b >= a`.  Comparable
values stand in exactly one order, and `<=` is the negation of `>`; for others all four operators fail.
Of strings, `<` is the lexicographic order of their UTF-16 units, a strict order that is total up to strict
equality. -/
theorem relations_coherent :
    (∀ a b : Value, BinaryOp.lt.apply a b = BinaryOp.gt.apply b a ∧
      BinaryOp.ltEq.apply a b = BinaryOp.gtEq.apply b a) ∧
    (∀ a b : Value, Comparable a b → (∃! order, Stands a b order) ∧
      BinaryOp.ltEq.apply a b = UnaryOp.not.apply (BinaryOp.gt.apply a b)) ∧
    (∀ a b : Value, ¬ Comparable a b →
      ∀ op ∈ [BinaryOp.lt, BinaryOp.ltEq, BinaryOp.gt, BinaryOp.gtEq], op.apply a b = .bool false) ∧
    (∀ s t : String, Less s t ↔ Utf16.units s.toList < Utf16.units t.toList) ∧
    (∀ s : String, ¬ Less s s) ∧
    (∀ s t u : String, Less s t → Less t u → Less s u) ∧
    ∀ s t : String, Less s t ∨ (string s).strictEquals (string t) ∨ Less t s := by
  refine ⟨fun a b => ⟨apply_gt_swap a b, apply_gtEq_swap a b⟩,
    fun a b h => ⟨exists_unique_stands h, apply_ltEq_of_comparable h⟩,
    fun a b h op hop => apply_of_not_comparable h hop, fun s t => less_iff, ?_, ?_, ?_⟩
  · intro s less
    exact List.lt_irrefl _ (less_iff.1 less)
  · intro s t u less less'
    exact less_iff.2 (List.lt_trans (less_iff.1 less) (less_iff.1 less'))
  · intro s t
    obtain ⟨order, stands, -⟩ := exists_unique_stands (.inl ⟨s, t, rfl, rfl⟩ : Comparable (string s) (string t))
    cases order with
    | lt => exact .inl stands
    | eq => exact .inr (.inl stands)
    | gt => exact .inr (.inr ((apply_gt_swap (string t) (string s)).trans stands))

theorem relations_coherent_pairs :
    Less "a" "😀" ∧ Less "😀" "\uffee" ∧ Less "a" "\uffee" ∧
      Comparable (string "a") (string "😀") ∧ (∃! order, Stands (string "a") (string "😀") order) ∧
      ¬ Comparable undefined null ∧ BinaryOp.ltEq.apply undefined null = .bool false := by
  obtain ⟨-, comparable, failing, -, -, transitive, -⟩ := relations_coherent
  have first : Less "a" "😀" := less_iff.2 (by decide +kernel)
  have second : Less "😀" "\uffee" := less_iff.2 (by decide +kernel)
  have strings : Comparable (string "a") (string "😀") := .inl ⟨_, _, rfl, rfl⟩
  have apart : ¬ Comparable undefined null := compare?_eq_none_iff.1 rfl
  exact ⟨first, second, transitive _ _ _ first second, strings, (comparable _ _ strings).1, apart,
    failing _ _ apart .ltEq (by decide)⟩

end Value

end TemplateExpr
