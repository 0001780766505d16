import TemplateExpr.Config.Basic
import TemplateExpr.Text.Blank
import TemplateExpr.Yaml.Read
import TemplateExpr.Yaml.Schema

/-!
# Configurations as YAML

A configuration file is a mapping with `bindings`, a mapping of the two names, and `max_nesting`.
Whatever is left out has its standard value, unknown entries do not count, and a known one may not
repeat.  A name is taken by its text, whatever a plain scalar of that text would stand for.
-/

namespace TemplateExpr

namespace Yaml

/-- The entries of a mapping by the texts of their keys; a node that is not there has none. -/
def fields? (targets : List (Nat × Yaml)) (node : Yaml) : Option (List (String × Yaml)) :=
  match resolve? targets node with
  | some (mapping _ entries) =>
    entries.mapM fun (key, value) => (text? targets key).map fun key => (key, value)
  | some (scalar _ .plain "") => some []
  | _ => none

/-- The value under a key that is read by `read?`, or a standard value; `none` if the key repeats or
its value cannot be read. -/
def fieldOr? (key : String) (standard : α) (read? : Yaml → Option α)
    (fields : List (String × Yaml)) : Option α :=
  match fields.filterMap fun (k, value) => if k = key then some value else none with
  | [] => some standard
  | [value] => read? value
  | _ => none

/-- The number of digits without a minus sign. -/
def count? (text : String) : Option Nat :=
  match text.toList with
  | '-' :: _ => none
  | '+' :: digits => unsigned? digits
  | digits => unsigned? digits

/-- A natural number below `2 ^ 64`, in a plain scalar with any tag or in a literal one with the tag for
integers. -/
def word? (targets : List (Nat × Yaml)) (node : Yaml) : Option Nat :=
  let read := fun text => (count? text).filter (· < Nat.pow 2 64)
  match resolve? targets node with
  | some (scalar _ .plain text) => read text
  | some (scalar properties .literal text) =>
    if properties.tag = some (schemaTag ++ "int") then read text else none
  | _ => none

end Yaml

def Bindings.ofYaml? (targets : List (Nat × Yaml)) (node : Yaml) : Option Bindings := do
  let fields ← Yaml.fields? targets node
  let filters ← Yaml.fieldOr? "filters" Config.standard.bindings.filters (Yaml.text? targets) fields
  let env ← Yaml.fieldOr? "env" Config.standard.bindings.env (Yaml.text? targets) fields
  pure ⟨filters, env⟩

namespace Config

def ofYaml? (root : Yaml) : Option Config := do
  let targets := root.targets
  let fields ← Yaml.fields? targets root
  let bindings ← Yaml.fieldOr? "bindings" standard.bindings (Bindings.ofYaml? targets) fields
  let maxNesting ← Yaml.fieldOr? "max_nesting" standard.maxNesting (Yaml.word? targets) fields
  pure ⟨bindings, maxNesting⟩

/-- The configuration of a file's text, checked; a blank text is the standard one.  `complaint` is what the reader
of such files says of a text that it refuses. -/
def read (complaint : String → String) (text : String) : Except Error Config :=
  if text.toList.all isBlank then .ok standard
  else
    match (Yaml.read? text).bind ofYaml? with
    | none => .error (.user (.badConfig (complaint text)))
    | some config => config.checked

/-- A name as it is written in a file: between quotes if a plain scalar of that text would not be a
string. -/
def nameText (name : String) : String := if Yaml.isSpecial name then "'" ++ name ++ "'" else name

/-- The text of a configuration file. -/
def write (config : Config) : String :=
  "bindings:\n  filters: " ++ nameText config.bindings.filters ++ "\n  env: " ++
    nameText config.bindings.env ++ "\nmax_nesting: " ++ toString config.maxNesting ++ "\n"

end Config

end TemplateExpr
