import TemplateExpr.Double.Layout

/-!
# JSON documents

A document as it was written: members keep their order and may repeat a key, and a number that was
written as a whole number within 64 bits is kept apart from the doubles.
-/

namespace TemplateExpr

inductive Json where
  | null
  | bool (value : Bool)
  | integer (value : Int)
  | float (value : Double)
  | string (value : String)
  | array (items : List Json)
  | object (members : List (String × Json))

namespace Json

instance : Inhabited Json := ⟨null⟩

/-- A double as a document; one that is not finite is null. -/
def ofDouble (x : Double) : Json := if x.isFinite then float x else null

end Json

/-- The lexical elements of JSON text. -/
inductive JsonToken where
  | openArray
  | closeArray
  | openObject
  | closeObject
  | comma
  | colon
  /-- A document without parts: a literal, a number or a string. -/
  | leaf (value : Json)

end TemplateExpr
