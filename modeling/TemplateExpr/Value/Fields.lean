/-!
# Fields of objects

The fields of an object are in increasing order of their keys, each key once.  Lists of fields can only be
built that way: a field goes in front of fields whose keys are all above its own.
-/

namespace TemplateExpr

/-- A key that is above the keys before it, of which the last one is the bound. -/
def IsAbove (key : String) : Option String → Prop
  | none => True
  | some bound => bound < key

instance decidableIsAbove (key : String) : (bound : Option String) → Decidable (IsAbove key bound)
  | none => .isTrue trivial
  | some bound => inferInstanceAs (Decidable (bound < key))

/-- Fields in increasing order of their keys, all of them above a bound. -/
inductive Fields (α : Type) : Option String → Type where
  | nil {bound : Option String} : Fields α bound
  | cons {bound : Option String} (key : String) (above : IsAbove key bound) (value : α)
      (rest : Fields α (some key)) : Fields α bound

namespace Fields

variable {α : Type} {bound : Option String}

def toList {bound : Option String} : Fields α bound → List (String × α)
  | nil => []
  | cons key _ value rest => (key, value) :: rest.toList

/-- The value of a key. -/
def get? {bound : Option String} (key : String) : Fields α bound → Option α
  | nil => none
  | cons k _ value rest => if k == key then some value else rest.get? key

/-- Fields with one more; a key that is there keeps its value. -/
def add {bound : Option String} (key : String) (value : α) (above : IsAbove key bound) :
    Fields α bound → Fields α bound
  | nil => cons key above value nil
  | cons k above' v rest =>
    if before : key < k then cons key above value (cons k before v rest)
    else if behind : k < key then cons k above' v (rest.add key value behind)
    else cons k above' v rest

/-- The fields of a list of pairs; of pairs with one key the last one counts. -/
def ofPairs (pairs : List (String × α)) : Fields α none :=
  pairs.foldr (fun (key, value) fields => fields.add key value trivial) nil

@[simp] theorem toList_nil : (nil : Fields α bound).toList = [] := rfl

@[simp] theorem toList_cons (key : String) (above : IsAbove key bound) (value : α) (rest : Fields α (some key)) :
    (cons key above value rest).toList = (key, value) :: rest.toList := rfl

theorem mem_of_get? {key : String} {fields : Fields α bound} {value : α} (h : fields.get? key = some value) :
    (key, value) ∈ fields.toList := by
  induction fields with
  | nil => cases h
  | cons k above v rest ih =>
    rw [get?] at h
    split at h
    · simp_all
    · exact List.mem_cons_of_mem _ (ih h)

theorem mem_add {key : String} {value : α} {above : IsAbove key bound} {fields : Fields α bound}
    {field : String × α} (h : field ∈ (fields.add key value above).toList) :
    field = (key, value) ∨ field ∈ fields.toList := by
  induction fields with
  | nil => simpa [add] using h
  | cons k above' v rest ih =>
    rw [add] at h
    split at h
    · exact List.mem_cons.1 h
    · split at h
      · rw [toList_cons, List.mem_cons] at h ⊢
        obtain rfl | h := h
        · exact .inr (.inl rfl)
        · exact (ih h).imp_right .inr
      · exact .inr h

theorem above_of_mem {fields : Fields α bound} {field : String × α} (h : field ∈ fields.toList) :
    IsAbove field.1 bound := by
  induction fields with
  | nil => cases h
  | @cons bound key above value rest ih =>
    obtain rfl | h := List.mem_cons.1 h
    · exact above
    · have behind : key < field.1 := ih h
      cases bound with
      | none => trivial
      | some bound => exact String.lt_trans above behind

/-- The keys of fields increase, so each of them is there once. -/
theorem keys_increase (fields : Fields α bound) : (fields.toList.map Prod.fst).Pairwise (· < ·) := by
  induction fields with
  | nil => exact .nil
  | cons key above value rest ih =>
    refine List.pairwise_cons.2 ⟨fun k hk => ?_, ih⟩
    obtain ⟨field, hfield, rfl⟩ := List.mem_map.1 hk
    exact above_of_mem hfield

/-- A field whose key is less than all others goes to the front. -/
theorem toList_add_front {key : String} {above : IsAbove key bound} {fields : Fields α bound}
    (h : ∀ field ∈ fields.toList, key < field.1) (value : α) :
    (fields.add key value above).toList = (key, value) :: fields.toList := by
  cases fields with
  | nil => rfl
  | cons k above' v rest =>
    have before : key < k := h (k, v) List.mem_cons_self
    rw [add, dif_pos before]
    rfl

end Fields

end TemplateExpr
