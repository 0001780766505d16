import TemplateExpr.Json.Lexical

/-!
# Reading JSON

Documents are read from their tokens in one pass.  The containers that are still open form a stack, so
a deep document costs no more than a long one; a bound on the depth may be given.
-/

namespace TemplateExpr

namespace Json

/-- A container that is still open, with what it holds so far in reverse. -/
inductive OpenContainer where
  | array (items : List Json)
  /-- An object whose last member has a key but no value yet. -/
  | object (members : List (String × Json)) (key : String)

/-- What the next token may be. -/
inductive Expecting where
  /-- A document. -/
  | value
  /-- A document, or the end of an array that has just begun. -/
  | firstItem
  /-- A key, or the end of an object that has just begun. -/
  | firstKey
  /-- A key, after the members so far in reverse. -/
  | key (members : List (String × Json))
  /-- The colon after a key. -/
  | colon (members : List (String × Json)) (key : String)
  /-- A comma or the end of a container, after a finished document. -/
  | next (value : Json)

/-- How far the reading has come: what may follow, the open containers from the innermost, and how
many they are. -/
structure Reading where
  expecting : Expecting
  stack : List OpenContainer
  depth : Nat

/-- The start of a document: one token of it, or the opening of a container. -/
def Reading.enter? (limit : Option Nat) (r : Reading) : JsonToken → Option Reading
  | .leaf value => some { r with expecting := .next value }
  | .openArray => opened .firstItem (.array [] :: r.stack)
  | .openObject => opened .firstKey r.stack
  | _ => none
where
  opened (expecting : Expecting) (stack : List OpenContainer) : Option Reading :=
    if limit.all (r.depth < ·) then some ⟨expecting, stack, r.depth + 1⟩ else none

/-- One token further. -/
def Reading.step? (limit : Option Nat) (r : Reading) (token : JsonToken) : Option Reading :=
  match r.expecting, r.stack, token with
  | .firstItem, .array _ :: outer, .closeArray => some ⟨.next (.array []), outer, r.depth - 1⟩
  | .value, _, _ => r.enter? limit token
  | .firstItem, _, _ => r.enter? limit token
  | .firstKey, outer, .closeObject => some ⟨.next (.object []), outer, r.depth - 1⟩
  | .firstKey, _, .leaf (.string key) => some { r with expecting := .colon [] key }
  | .key members, _, .leaf (.string key) => some { r with expecting := .colon members key }
  | .colon members key, outer, .colon => some ⟨.value, .object members key :: outer, r.depth⟩
  | .next value, .array items :: outer, .comma => some ⟨.value, .array (value :: items) :: outer, r.depth⟩
  | .next value, .array items :: outer, .closeArray =>
    some ⟨.next (.array (value :: items).reverse), outer, r.depth - 1⟩
  | .next value, .object members key :: outer, .comma =>
    some ⟨.key ((key, value) :: members), outer, r.depth⟩
  | .next value, .object members key :: outer, .closeObject =>
    some ⟨.next (.object ((key, value) :: members).reverse), outer, r.depth - 1⟩
  | _, _, _ => none

/-- The document that is finished, if nothing is left open. -/
def Reading.result? (r : Reading) : Option Json :=
  match r.expecting, r.stack with
  | .next value, [] => some value
  | _, _ => none

def ofTokens? (limit : Option Nat) (tokens : List JsonToken) : Option Json := do
  let r ← tokens.foldlM (Reading.step? limit) ⟨.value, [], 0⟩
  r.result?

/-- The document of a text; `limit` bounds the number of containers within each other. -/
def read? (limit : Option Nat) (s : String) : Option Json := do
  let tokens ← tokens? s.toList
  ofTokens? limit tokens

/-- The depth up to which values are read. -/
def valueDepth : Nat := 127

end Json

end TemplateExpr
