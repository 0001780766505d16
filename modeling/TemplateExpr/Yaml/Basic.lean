import TemplateExpr.Yaml.Scalar

/-!
# YAML documents

A document is a tree of scalars, sequences and mappings, in which a node may have an anchor and an alias
stands for the node with an anchor.  Anchors go by numbers.  A number may be given again: then it is
that of the node furthest to the right.
-/

namespace TemplateExpr

/-- What may stand before a node: the number of its anchor, and its tag. -/
structure Yaml.Properties where
  anchor : Option Nat
  tag : Option String
  deriving DecidableEq

inductive Yaml where
  /-- An alias: it stands for the node with the anchor. -/
  | reference (anchor : Nat)
  | scalar (properties : Yaml.Properties) (style : Yaml.Style) (text : String)
  | sequence (properties : Yaml.Properties) (items : List Yaml)
  | mapping (properties : Yaml.Properties) (entries : List (Yaml × Yaml))

namespace Yaml

/-- Neither anchor nor tag. -/
def Properties.bare : Properties := ⟨none, none⟩

def empty : Yaml := scalar .bare .plain ""

instance : Inhabited Yaml := ⟨empty⟩

/-! ### Aliases -/

/-- A node under the number of its anchor, if it has one. -/
def Properties.label (properties : Properties) (node : Yaml) : List (Nat × Yaml) :=
  (properties.anchor.map fun anchor => (anchor, node)).toList

mutual

/-- The nodes with anchors, from left to right, each before those within it. -/
def labelled : Yaml → List (Nat × Yaml)
  | reference _ => []
  | scalar properties style text => properties.label (scalar properties style text)
  | sequence properties items => properties.label (sequence properties items) ++ labelledItems items
  | mapping properties entries => properties.label (mapping properties entries) ++ labelledEntries entries

def labelledItems : List Yaml → List (Nat × Yaml)
  | [] => []
  | item :: items => labelled item ++ labelledItems items

def labelledEntries : List (Yaml × Yaml) → List (Nat × Yaml)
  | [] => []
  | (key, value) :: entries => labelled key ++ labelled value ++ labelledEntries entries

end

/-- The nodes that the aliases in a document may stand for; the first one of a number counts. -/
def targets (root : Yaml) : List (Nat × Yaml) := root.labelled.reverse

/-- The node itself, or the one that it is an alias for. -/
def resolve? (targets : List (Nat × Yaml)) : Yaml → Option Yaml
  | reference anchor => targets.lookup anchor
  | node => some node

def text? (targets : List (Nat × Yaml)) (node : Yaml) : Option String :=
  match resolve? targets node with
  | some (scalar _ _ text) => some text
  | _ => none

end Yaml

end TemplateExpr
