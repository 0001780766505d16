import TemplateExpr.Eval
import TemplateExpr.Expr.Parse

/-!
# Configurations

The names that an expression may use and the nesting it may have.  A name is made of ASCII letters,
digits, underscore and dollar sign, does not begin with a digit, and is no word with a meaning of its
own; the two names differ.
-/

namespace TemplateExpr

structure Config where
  bindings : Bindings
  maxNesting : Nat
  deriving DecidableEq

/-- The configuration of templates that refer to the filters as `r` and to the environment as `e`. -/
def Config.standard : Config := ⟨⟨"r", "e"⟩, defaultNesting⟩

/-- A character that may begin the name of a binding. -/
def isBindingStart (c : Char) : Bool := c.isAlpha || c == '_' || c == '$'

/-- Whether a text is an identifier in the narrow sense of configurations. -/
def isBindingName (name : String) : Bool :=
  match name.toList with
  | [] => false
  | c :: rest => isBindingStart c && rest.all fun d => isBindingStart d || d.isDigit

/-- The words that are literals or operators. -/
def reservedWords : List String := ["true", "false", "null", "undefined", "typeof"]

def BindingField.check (field : BindingField) (name : String) : Except Error Unit :=
  if !isBindingName name then .error (.user (.notIdentifier field name))
  else if name ∈ reservedWords then .error (.user (.reservedWord field name))
  else .ok ()

def Bindings.validate (bindings : Bindings) : Except Error Unit := do
  BindingField.filters.check bindings.filters
  BindingField.env.check bindings.env
  if bindings.filters = bindings.env then .error (.user (.sameName bindings.filters))

/-- Checks a configuration: its names first, then its nesting. -/
def Config.validate (config : Config) : Except Error Unit := do
  config.bindings.validate
  if config.maxNesting = 0 then .error (.user .zeroNesting)

/-- A configuration that has passed its check. -/
def Config.checked (config : Config) : Except Error Config := config.validate.map fun _ => config

theorem Config.validate_standard : Config.standard.validate = .ok () := rfl

end TemplateExpr
