import TemplateExpr.Double.Arithmetic
import TemplateExpr.Value.Fields

/-!
# Values

What an environment holds and what every expression evaluates to.  The last two kinds, the filter
library and a single filter, arise only during evaluation.
-/

namespace TemplateExpr

/-- The filters of the library. -/
inductive Filter where
  | id
  | html
  | uri
  deriving DecidableEq

namespace Filter

/-- The name by which an expression reaches a filter. -/
def name : Filter → String
  | id => "id"
  | html => "html"
  | uri => "uri"

/-- The library, in the order in which it is listed. -/
def library : List Filter := [id, html, uri]

def ofName? (name : String) : Option Filter := library.find? fun filter => filter.name == name

theorem ofName?_name (filter : Filter) : ofName? filter.name = some filter := by
  cases filter <;> decide

theorem mem_library (filter : Filter) : filter ∈ library := by cases filter <;> decide

end Filter

inductive Value where
  | undefined
  | null
  | bool (value : Bool)
  | number (value : Double)
  | string (value : String)
  | array (items : List Value)
  | object (fields : Fields Value none)
  | filters
  | filter (value : Filter)

/-- Induction on values, with the parts of a container one by one. -/
@[elab_as_elim, induction_eliminator]
theorem Value.induction {motive : Value → Prop}
    (undefined : motive .undefined)
    (null : motive .null)
    (bool : ∀ value, motive (.bool value))
    (number : ∀ value, motive (.number value))
    (string : ∀ value, motive (.string value))
    (array : ∀ items, (∀ item ∈ items, motive item) → motive (.array items))
    (object : ∀ fields, (∀ field ∈ fields.toList, motive field.2) → motive (.object fields))
    (filters : motive .filters)
    (filter : ∀ value, motive (.filter value)) (v : Value) : motive v :=
  @Value.rec motive (fun items => ∀ item ∈ items, motive item)
    (fun _ fields => ∀ field ∈ fields.toList, motive field.2)
    undefined null bool number string array object filters filter
    (fun _ h => absurd h List.not_mem_nil)
    (fun _ _ first others item h => (List.mem_cons.1 h).elim (fun eq => eq ▸ first) (others item))
    (fun _ h => absurd h List.not_mem_nil)
    (fun _ _ _ _ first others field h => (List.mem_cons.1 h).elim (fun eq => eq ▸ first) (others field)) v

namespace Value

instance : Inhabited Value := ⟨undefined⟩

def isNullish : Value → Bool
  | undefined | null => true
  | _ => false

/-- Whether a value is an array, an object, the library or a filter. -/
def isComposite : Value → Bool
  | array _ | object _ | filters | filter _ => true
  | _ => false

end Value

end TemplateExpr
