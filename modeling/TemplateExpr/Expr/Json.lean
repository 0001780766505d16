import TemplateExpr.Expr.Basic
import TemplateExpr.Double.Arithmetic
import TemplateExpr.Json.Read
import TemplateExpr.Json.Write

/-!
# Expressions as JSON

A tree is written as an object with a `type` and the parts of the node; a literal as an object with a
`kind` and a `value`.  Reading accepts more than is written: members in any order, unknown members, and
a node or literal as an array of its tag and its parts.  A member that is known may not repeat.  Within
a tree a node may name its type by number, and so may a literal in an array its kind.
-/

namespace TemplateExpr

/-! ### Tags -/

inductive NodeType where
  | literal
  | identifier
  | member
  | index
  | call
  | unary
  | binary
  | logical
  | conditional
  deriving DecidableEq

def NodeType.tag : NodeType → String
  | literal => "literal"
  | identifier => "identifier"
  | member => "member"
  | index => "index"
  | call => "call"
  | unary => "unary"
  | binary => "binary"
  | logical => "logical"
  | conditional => "conditional"

def NodeType.all : List NodeType :=
  [literal, identifier, member, index, call, unary, binary, logical, conditional]

inductive LiteralKind where
  | undefined
  | null
  | bool
  | number
  | string
  deriving DecidableEq

def LiteralKind.tag : LiteralKind → String
  | undefined => "undefined"
  | null => "null"
  | bool => "bool"
  | number => "number"
  | string => "string"

def LiteralKind.all : List LiteralKind := [undefined, null, bool, number, string]

def UnaryOp.tag : UnaryOp → String
  | not => "not"
  | negate => "negate"
  | plus => "plus"
  | typeof => "typeof"

def UnaryOp.all : List UnaryOp := [not, negate, plus, typeof]

def BinaryOp.tag : BinaryOp → String
  | add => "add"
  | sub => "sub"
  | mul => "mul"
  | div => "div"
  | rem => "rem"
  | lt => "lt"
  | ltEq => "lt_eq"
  | gt => "gt"
  | gtEq => "gt_eq"
  | eq => "eq"
  | notEq => "not_eq"
  | strictEq => "strict_eq"
  | strictNotEq => "strict_not_eq"

def BinaryOp.all : List BinaryOp :=
  [add, sub, mul, div, rem, lt, ltEq, gt, gtEq, eq, notEq, strictEq, strictNotEq]

def LogicalOp.tag : LogicalOp → String
  | and => "and"
  | or => "or"
  | nullish => "nullish"

def LogicalOp.all : List LogicalOp := [and, or, nullish]

/-! ### Writing -/

/-- A literal as a document; the kinds with a single value have no `value`. -/
def Literal.toJson : Literal → Json
  | undefined => .object [("kind", .string "undefined")]
  | null => .object [("kind", .string "null")]
  | bool value => .object [("kind", .string "bool"), ("value", .bool value)]
  | number value => .object [("kind", .string "number"), ("value", .ofDouble value)]
  | string value => .object [("kind", .string "string"), ("value", .string value)]

namespace Expr

mutual

def toJson : Expr → Json
  | literal value => .object [("type", .string "literal"), ("value", value.toJson)]
  | identifier name => .object [("type", .string "identifier"), ("name", .string name)]
  | member object property =>
    .object [("type", .string "member"), ("object", object.toJson), ("property", .string property)]
  | index object key =>
    .object [("type", .string "index"), ("object", object.toJson), ("index", key.toJson)]
  | call callee arguments =>
    .object [("type", .string "call"), ("callee", callee.toJson), ("arguments", .array (toJsons arguments))]
  | unary op operand =>
    .object [("type", .string "unary"), ("op", .string op.tag), ("operand", operand.toJson)]
  | binary op left right =>
    .object [("type", .string "binary"), ("op", .string op.tag), ("left", left.toJson),
      ("right", right.toJson)]
  | logical op left right =>
    .object [("type", .string "logical"), ("op", .string op.tag), ("left", left.toJson),
      ("right", right.toJson)]
  | conditional test consequent alternate =>
    .object [("type", .string "conditional"), ("test", test.toJson), ("consequent", consequent.toJson),
      ("alternate", alternate.toJson)]

def toJsons : List Expr → List Json
  | [] => []
  | e :: rest => e.toJson :: toJsons rest

end

end Expr

/-! ### Reading -/

namespace Json

def asString? : Json → Option String
  | string s => some s
  | _ => none

def asDouble? : Json → Option Double
  | integer n => some (.ofInt n)
  | float x => some x
  | _ => none

/-- Null, or an object without members. -/
def isUnit : Json → Bool
  | null => true
  | object [] => true
  | _ => false

/-- One of several things by its tag or by its place among them, counted from zero. -/
def asNumbered? (tag : α → String) (all : List α) : Json → Option α
  | string s => all.find? fun a => tag a == s
  | integer n => if n < 0 then none else all[n.toNat]?
  | _ => none

/-- One of several things by its tag: the tag itself, or an object whose only member is the tag with
nothing in it. -/
def asTagged? (tag : α → String) (all : List α) : Json → Option α
  | string s => all.find? fun a => tag a == s
  | object [(s, content)] => if content.isUnit then all.find? fun a => tag a == s else none
  | _ => none

end Json

theorem UnaryOp.asTagged?_tag (op : UnaryOp) :
    (Json.string op.tag).asTagged? tag all = some op := by
  cases op <;> rfl

theorem BinaryOp.asTagged?_tag (op : BinaryOp) :
    (Json.string op.tag).asTagged? tag all = some op := by
  cases op <;> rfl

theorem LogicalOp.asTagged?_tag (op : LogicalOp) :
    (Json.string op.tag).asTagged? tag all = some op := by
  cases op <;> rfl

theorem LiteralKind.asTagged?_tag (kind : LiteralKind) :
    (Json.string kind.tag).asTagged? tag all = some kind := by
  cases kind <;> rfl

/-- The values that a list of pairs has under a key. -/
def valuesOf (key : String) (pairs : List (String × α)) : List α :=
  pairs.filterMap fun (k, value) => if k = key then some value else none

/-- The literal of a kind with a content; the kinds with a single value have none, or null. -/
def Literal.ofContent? : LiteralKind → Option Json → Option Literal
  | .undefined, none => some undefined
  | .undefined, some .null => some undefined
  | .null, none => some null
  | .null, some .null => some null
  | .bool, some (.bool value) => some (bool value)
  | .number, some content => content.asDouble?.map number
  | .string, some (.string value) => some (string value)
  | _, _ => none

/-- The literal of a document: an object, or an array of the kind and the content.  Only in an array may
the kind be a number, and only in an object may it be an object. -/
def Literal.ofJson? : Json → Option Literal
  | .object members =>
    match valuesOf "kind" members, valuesOf "value" members with
    | [kind], [] => (kind.asTagged? LiteralKind.tag LiteralKind.all).bind (ofContent? · none)
    | [kind], [content] =>
      (kind.asTagged? LiteralKind.tag LiteralKind.all).bind (ofContent? · (some content))
    | _, _ => none
  | .array [kind, content] =>
    (kind.asNumbered? LiteralKind.tag LiteralKind.all).bind (ofContent? · (some content))
  | _ => none

/-- The type of a node by its tag or, within a tree, by its number. -/
def NodeType.ofJson? (outermost : Bool) (json : Json) : Option NodeType :=
  match outermost, json with
  | true, .integer _ => none
  | _, _ => json.asNumbered? tag all

theorem NodeType.ofJson?_tag (outermost : Bool) (type : NodeType) :
    ofJson? outermost (.string type.tag) = some type := by
  cases outermost <;> cases type <;> rfl

/-- The names of the parts of a node, in the order in which an array gives them. -/
def NodeType.partNames : NodeType → List String
  | literal => ["value"]
  | identifier => ["name"]
  | member => ["object", "property"]
  | index => ["object", "index"]
  | call => ["callee", "arguments"]
  | unary => ["op", "operand"]
  | binary => ["op", "left", "right"]
  | logical => ["op", "left", "right"]
  | conditional => ["test", "consequent", "alternate"]

namespace Expr

/-- A document within a tree, with what it is as a tree and as a list of trees. -/
structure Part where
  json : Json
  tree? : Option Expr
  trees? : Option (List Expr)

/-- The node of a type with the parts that are there, in the order of their names; only the arguments
of a call may be left out. -/
def ofParts? : NodeType → List (Option Part) → Option Expr
  | .literal, [some value] => (Literal.ofJson? value.json).map literal
  | .identifier, [some name] => name.json.asString?.map identifier
  | .member, [some object, some property] => do
    pure (member (← object.tree?) (← property.json.asString?))
  | .index, [some object, some key] => do pure (index (← object.tree?) (← key.tree?))
  | .call, [some callee, none] => do pure (call (← callee.tree?) [])
  | .call, [some callee, some arguments] => do pure (call (← callee.tree?) (← arguments.trees?))
  | .unary, [some op, some operand] => do
    pure (unary (← op.json.asTagged? UnaryOp.tag UnaryOp.all) (← operand.tree?))
  | .binary, [some op, some left, some right] => do
    pure (binary (← op.json.asTagged? BinaryOp.tag BinaryOp.all) (← left.tree?) (← right.tree?))
  | .logical, [some op, some left, some right] => do
    pure (logical (← op.json.asTagged? LogicalOp.tag LogicalOp.all) (← left.tree?) (← right.tree?))
  | .conditional, [some test, some consequent, some alternate] => do
    pure (conditional (← test.tree?) (← consequent.tree?) (← alternate.tree?))
  | _, _ => none

/-- At most one value: none, or a single one; `none` if there are more. -/
def atMostOne? : List α → Option (Option α)
  | [] => some none
  | [a] => some (some a)
  | _ => none

/-- The node of an object. -/
def ofMembers? (outermost : Bool) (members : List (String × Part)) : Option Expr :=
  match valuesOf "type" members with
  | [tag] => do
    let type ← NodeType.ofJson? outermost tag.json
    let parts ← type.partNames.mapM fun name => atMostOne? (valuesOf name members)
    ofParts? type parts
  | _ => none

/-- The node of an array: its tag, then its parts. -/
def ofItems? (outermost : Bool) : List Part → Option Expr
  | [] => none
  | tag :: parts => do
    let type ← NodeType.ofJson? outermost tag.json
    let missing := type.partNames.length - parts.length
    ofParts? type (parts.map some ++ List.replicate missing none)

mutual

/-- A document with what it is within a tree. -/
def part : Json → Part
  | .array items =>
    let parts := partsOfItems items
    ⟨.array items, ofItems? false parts, parts.mapM Part.tree?⟩
  | .object members => ⟨.object members, ofMembers? false (partsOfMembers members), none⟩
  | json => ⟨json, none, none⟩

def partsOfItems : List Json → List Part
  | [] => []
  | item :: items => part item :: partsOfItems items

def partsOfMembers : List (String × Json) → List (String × Part)
  | [] => []
  | (key, value) :: members => (key, part value) :: partsOfMembers members

end

def ofJson? : Json → Option Expr
  | .array items => ofItems? true (partsOfItems items)
  | .object members => ofMembers? true (partsOfMembers members)
  | _ => none

def write (e : Expr) : String := e.toJson.write

/-- The tree of a JSON text, of any depth. -/
def read? (s : String) : Option Expr := do
  let json ← Json.read? none s
  ofJson? json

end Expr

end TemplateExpr
