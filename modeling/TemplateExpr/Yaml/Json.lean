import TemplateExpr.Yaml.Schema

/-!
# YAML documents as JSON

Scalars are read by the core schema, and keys by their texts.  Aliases are replaced by their nodes, which
may make a small document large or endless, so the depth of the result and the number of replacements are
limited.
-/

namespace TemplateExpr

namespace Yaml

mutual

/-- The number of nodes, where a collection counts twice: it has a beginning and an end. -/
def size : Yaml → Nat
  | reference _ => 1
  | scalar _ _ _ => 1
  | sequence _ items => 2 + itemsSize items
  | mapping _ entries => 2 + entriesSize entries

def itemsSize : List Yaml → Nat
  | [] => 0
  | item :: items => size item + itemsSize items

def entriesSize : List (Yaml × Yaml) → Nat
  | [] => 0
  | (key, value) :: entries => size key + size value + entriesSize entries

end

/-- The greatest number of collections within each other. -/
def depthLimit : Nat := 128

/-- The greatest number of replacements for each of the nodes that are counted. -/
def replacementLimit : Nat := 100

/-- A node or the one that it is an alias for; the state is the number of replacements left. -/
def replace (targets : List (Nat × Yaml)) (node : Yaml) : StateT Nat Option Yaml :=
  match node with
  | reference anchor => do
    match ← get with
    | 0 => failure
    | left + 1 =>
      set left
      match targets.lookup anchor with
      | some target => pure target
      | none => failure
  | node => pure node

def keyText (targets : List (Nat × Yaml)) (key : Yaml) : StateT Nat Option String := do
  match ← replace targets key with
  | scalar _ _ text => pure text
  | _ => failure

/-- A node as a JSON document with at most `depth` collections within each other. -/
def toJsonWithin (targets : List (Nat × Yaml)) (depth : Nat) (node : Yaml) : StateT Nat Option Json :=
  match depth with
  | 0 => do
    match ← replace targets node with
    | scalar properties style text => liftM (scalarJson? properties.tag style text)
    | _ => failure
  | depth + 1 => do
    match ← replace targets node with
    | reference _ => failure
    | scalar properties style text => liftM (scalarJson? properties.tag style text)
    | sequence properties items =>
      if properties.tag.any isLocalTag then failure
      else pure (.array (← items.mapM fun item => toJsonWithin targets depth item))
    | mapping properties entries =>
      if properties.tag.any isLocalTag then failure
      else pure (.object (← entries.mapM fun (key, value) => do
        pure (← keyText targets key, ← toJsonWithin targets depth value)))

theorem keyText_scalar (targets : List (Nat × Yaml)) (properties : Properties) (style : Style) (text : String) :
    keyText targets (scalar properties style text) = pure text := rfl

theorem toJsonWithin_scalar (targets : List (Nat × Yaml)) (depth : Nat) (properties : Properties) (style : Style)
    (text : String) :
    toJsonWithin targets depth (scalar properties style text) =
      liftM (scalarJson? properties.tag style text) := by
  cases depth <;> rfl

theorem toJsonWithin_mapping (targets : List (Nat × Yaml)) (depth : Nat) {properties : Properties}
    (h : properties.tag.any isLocalTag = false) (entries : List (Yaml × Yaml)) :
    toJsonWithin targets (depth + 1) (mapping properties entries) = (do
      pure (.object (← entries.mapM fun entry => do
        pure (← keyText targets entry.1, ← toJsonWithin targets depth entry.2)))) := by
  have itself : replace targets (mapping properties entries) = pure (mapping properties entries) := rfl
  rw [toJsonWithin, itself, pure_bind]
  dsimp only
  rw [h]
  rfl

def toJson? (root : Yaml) : Option Json :=
  ((toJsonWithin root.targets depthLimit root).run (replacementLimit * root.size)).map Prod.fst

end Yaml

end TemplateExpr
