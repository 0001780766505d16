import TemplateExpr.Proofs.WholeNumbers

/-!
# Values and their documents

A value that is written as a document and read again is strictly equal to the value with null for each part that
JSON cannot hold: undefined, the filter library, its filters, and the numbers that are not finite.  Whole numbers
pass through integers on the way, which costs a zero its sign and nothing else.
-/

namespace TemplateExpr

/-! ### Parts of a value -/

namespace Value

section

variable {P : Value → Prop}

/-- A value and its parts at any depth have a property. -/
def Throughout (P : Value → Prop) (v : Value) : Prop := ∀ part, v.Holds part → P part

theorem throughout_atom {v : Value} (h : v.isContainer = false) : Throughout P v ↔ P v := by
  simp only [Throughout, holds_atom h, forall_eq]

theorem throughout_array {items : List Value} :
    Throughout P (array items) ↔ P (array items) ∧ ∀ item ∈ items, Throughout P item := by
  simp only [Throughout, holds_array, or_imp, forall_and, forall_eq, forall_exists_index, and_imp]
  exact and_congr_right fun _ => ⟨fun h item mem part => h part item mem, fun h part item mem => h item mem part⟩

theorem throughout_object {fields : Fields Value none} :
    Throughout P (object fields) ↔ P (object fields) ∧ ∀ field ∈ fields.toList, Throughout P field.2 := by
  simp only [Throughout, holds_object, or_imp, forall_and, forall_eq, forall_exists_index, and_imp]
  exact and_congr_right fun _ => ⟨fun h field mem part => h part field mem, fun h part field mem => h field mem part⟩

end

/-- Whether JSON can hold a value, apart from its parts. -/
def isStorable : Value → Bool
  | undefined | filters | filter _ => false
  | number x => x.isFinite
  | _ => true

mutual

/-- A value with null for all that JSON cannot hold. -/
def withNulls : Value → Value
  | undefined => null
  | filters => null
  | filter _ => null
  | number x => if x.isFinite then number x else null
  | array items => array (itemsWithNulls items)
  | object fields => object (fieldsWithNulls fields)
  | v => v

def itemsWithNulls : List Value → List Value
  | [] => []
  | item :: items => item.withNulls :: itemsWithNulls items

def fieldsWithNulls {bound : Option String} : Fields Value bound → Fields Value bound
  | .nil => .nil
  | .cons key above value fields => .cons key above value.withNulls (fieldsWithNulls fields)

end

theorem itemsWithNulls_eq (items : List Value) : itemsWithNulls items = items.map withNulls := by
  induction items with
  | nil => rfl
  | cons item items ih => rw [itemsWithNulls, ih, List.map_cons]

theorem toList_fieldsWithNulls {bound : Option String} (fields : Fields Value bound) :
    (fieldsWithNulls fields).toList = fields.toList.map fun field => (field.1, field.2.withNulls) := by
  induction fields with
  | nil => rfl
  | cons key above value fields ih => simp [fieldsWithNulls, ih]

theorem fieldsWithNulls_eq_self {bound : Option String} {fields : Fields Value bound}
    (h : ∀ field ∈ fields.toList, field.2.withNulls = field.2) : fieldsWithNulls fields = fields := by
  induction fields with
  | nil => rfl
  | cons key above value fields ih =>
    obtain ⟨first, others⟩ := List.forall_mem_cons.1 h
    rw [fieldsWithNulls, first, ih others]

theorem withNulls_eq_self {v : Value} (h : v.Throughout (·.isStorable)) : v.withNulls = v := by
  induction v with
  | undefined => cases (throughout_atom rfl).1 h
  | filters => cases (throughout_atom rfl).1 h
  | filter f => cases (throughout_atom rfl).1 h
  | number x =>
    have finite : x.isFinite := (throughout_atom rfl).1 h
    rw [withNulls, if_pos finite]
  | array items ih =>
    have parts := (throughout_array.1 h).2
    have same : items.map withNulls = items.map id := List.map_congr_left fun item mem => ih item mem (parts item mem)
    rw [withNulls, itemsWithNulls_eq, same, List.map_id]
  | object fields ih =>
    have parts := (throughout_object.1 h).2
    rw [withNulls, fieldsWithNulls_eq_self fun field mem => ih field mem (parts field mem)]
  | _ => rfl

/-! ### Items and fields -/

theorem ofJsonItems_eq (items : List Json) : ofJsonItems items = items.map ofJson := by
  induction items with
  | nil => rfl
  | cons item items ih => rw [ofJsonItems, ih, List.map_cons]

theorem toJsonItems_eq (items : List Value) : toJsonItems items = items.map toJson := by
  induction items with
  | nil => rfl
  | cons item items ih => rw [toJsonItems, ih, List.map_cons]

theorem toJsonFields_eq {bound : Option String} (fields : Fields Value bound) :
    toJsonFields fields = fields.toList.map fun field => (field.1, field.2.toJson) := by
  induction fields with
  | nil => rfl
  | cons key above value fields ih => rw [toJsonFields, ih, Fields.toList_cons, List.map_cons]

/-- Members in order are the fields as they are. -/
theorem toList_ofJsonMembers {members : List (String × Json)} (h : (members.map Prod.fst).Pairwise (· < ·)) :
    (ofJsonMembers members).toList = members.map fun member => (member.1, ofJson member.2) := by
  induction members with
  | nil => rfl
  | cons member members ih =>
    obtain ⟨first, rest⟩ := List.pairwise_cons.1 h
    rw [List.map_cons, ← ih rest]
    refine Fields.toList_add_front (fun field mem => first _ ?_) _
    rw [ih rest] at mem
    obtain ⟨other, hother, rfl⟩ := List.mem_map.1 mem
    exact List.mem_map_of_mem hother

/-! ### There and back -/

theorem ofJson_ofDouble (x : Double) : ofJson (.ofDouble x) = (number x).withNulls := by
  rw [Json.ofDouble, withNulls]
  split <;> rfl

theorem ofJson_numberJson (x : Double) : (ofJson (numberJson x)).strictEquals (number x).withNulls := by
  have direct : (ofJson (.ofDouble x)).strictEquals (number x).withNulls := by
    rw [ofJson_ofDouble, withNulls]
    split
    · rename_i finite
      rw [strictEquals, Double.equals_self_iff]
      rintro rfl
      cases finite
    · rfl
  unfold numberJson
  split
  · rename_i n whole
    split
    · obtain ⟨finite, -⟩ := Double.toInt?_eq_some_iff.1 whole
      rw [ofJson, withNulls, if_pos finite]
      exact Double.equals_ofInt whole
    · exact direct
  · exact direct

theorem ofJson_toJson (v : Value) : (ofJson v.toJson).strictEquals v.withNulls := by
  induction v with
  | number x => exact ofJson_numberJson x
  | array items ih =>
    rw [toJson, ofJson, withNulls, toJsonItems_eq, ofJsonItems_eq, itemsWithNulls_eq, List.map_map,
      strictEquals_array]
    exact ⟨_, rfl, List.forall₂_map_left_iff.2 (List.forall₂_map_right_iff.2 (List.forall₂_same.2 ih))⟩
  | object fields ih =>
    have keys : ((toJsonFields fields).map Prod.fst).Pairwise (· < ·) := by
      rw [toJsonFields_eq, List.map_map]
      exact fields.keys_increase
    rw [toJson, ofJson, withNulls, strictEquals_object]
    refine ⟨_, rfl, ?_⟩
    rw [toList_ofJsonMembers keys, toJsonFields_eq, toList_fieldsWithNulls, List.map_map]
    refine List.forall₂_map_left_iff.2 (List.forall₂_map_right_iff.2 (List.forall₂_same.2 ?_))
    exact fun field mem => ⟨rfl, ih field mem⟩
  | _ => exact (strictEquals_atom rfl).2 rfl

end Value

/-! ### Documents -/

namespace Json

mutual

/-- The whole numbers of a document have at most 64 bits, and its doubles are finite. -/
def NumbersFit : Json → Prop
  | integer n => n.natAbs < Nat.pow 2 64
  | float x => x.isFinite
  | array items => ItemsFit items
  | object members => MembersFit members
  | _ => True

def ItemsFit : List Json → Prop
  | [] => True
  | item :: items => NumbersFit item ∧ ItemsFit items

def MembersFit : List (String × Json) → Prop
  | [] => True
  | (_, value) :: members => NumbersFit value ∧ MembersFit members

end

end Json

namespace Value

mutual

/-- Whatever is read from a document can be written as one. -/
theorem throughout_ofJson (document : Json) (h : document.NumbersFit) :
    (ofJson document).Throughout (·.isStorable) := by
  cases document with
  | integer n => exact (throughout_atom rfl).2 (Double.isFinite_ofInt h)
  | float x => exact (throughout_atom rfl).2 h
  | array items => exact throughout_array.2 ⟨rfl, throughout_ofJsonItems items h⟩
  | object members => exact throughout_object.2 ⟨rfl, throughout_ofJsonMembers members h⟩
  | _ => exact (throughout_atom rfl).2 rfl

theorem throughout_ofJsonItems (items : List Json) (h : Json.ItemsFit items) :
    ∀ item ∈ ofJsonItems items, item.Throughout (·.isStorable) := by
  cases items with
  | nil => exact List.forall_mem_nil _
  | cons item items =>
    exact List.forall_mem_cons.2 ⟨throughout_ofJson item h.1, throughout_ofJsonItems items h.2⟩

theorem throughout_ofJsonMembers (members : List (String × Json)) (h : Json.MembersFit members) :
    ∀ field ∈ (ofJsonMembers members).toList, field.2.Throughout (·.isStorable) := by
  cases members with
  | nil => exact List.forall_mem_nil _
  | cons member members =>
    intro field mem
    obtain rfl | mem := Fields.mem_add mem
    · exact throughout_ofJson member.2 h.1
    · exact throughout_ofJsonMembers members h.2 field mem

end

/-- A value that is written as a document and read again is the same under strict equality, but with null for each
part that JSON cannot hold; so nothing is lost if there is no such part.  And the value of a document stays the
same when it is written and read once more, whatever order and repetition of keys the document has. -/
theorem document_keeps_value :
    (∀ v : Value, (ofJson v.toJson).strictEquals v.withNulls) ∧
    (∀ v : Value, v.Throughout (·.isStorable) → (ofJson v.toJson).strictEquals v) ∧
    ∀ document : Json, document.NumbersFit → (ofJson (ofJson document).toJson).strictEquals (ofJson document) := by
  have whole (v : Value) (storable : v.Throughout (·.isStorable)) : (ofJson v.toJson).strictEquals v := by
    have same := ofJson_toJson v
    rwa [withNulls_eq_self storable] at same
  exact ⟨ofJson_toJson, whole, fun document fit => whole _ (throughout_ofJson document fit)⟩

theorem document_keeps_value_mixed :
    let mixed : Value := .object (.ofPairs [("a", .array [.number Double.zero.neg, .undefined]), ("b", .filters)])
    let nulls : Value := .object (.ofPairs [("a", .array [.number Double.zero.neg, .null]), ("b", .null)])
    let plain : Value := .array [.number Double.zero.neg, .string "c"]
    let document : Json := .object [("b", .integer 5), ("a", .float Double.zero.neg), ("b", .null)]
    (ofJson mixed.toJson).strictEquals nulls ∧ (ofJson plain.toJson).strictEquals plain ∧
      (ofJson (ofJson document).toJson).strictEquals (ofJson document) := by
  intro mixed nulls plain document
  have leaf {v : Value} (h : v.isContainer = false) (hv : v.isStorable) : v.Throughout (·.isStorable) :=
    (throughout_atom h).2 hv
  have finite : Double.zero.neg.isFinite := by decide
  have storable : plain.Throughout (·.isStorable) :=
    throughout_array.2 ⟨rfl, List.forall_mem_cons.2 ⟨leaf rfl finite, List.forall_mem_singleton.2 (leaf rfl rfl)⟩⟩
  have small : (5 : Int).natAbs < Nat.pow 2 64 := by decide
  have fit : document.NumbersFit := ⟨small, finite, trivial, trivial⟩
  obtain ⟨stored, same, again⟩ := document_keeps_value
  exact ⟨stored mixed, same plain storable, again document fit⟩

end Value

end TemplateExpr
