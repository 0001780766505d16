import TemplateExpr.Config.Basic

/-!
# Rendering

A template is parsed, evaluated against an environment, and its value written as text.  Parsing and
evaluation are the two ways in which rendering can fail.
-/

namespace TemplateExpr

namespace Config

def evaluate (config : Config) (env : Value) (e : Expr) : Except Error Value :=
  e.evaluate config.bindings env

def renderTree (config : Config) (env : Value) (e : Expr) : Except Error String :=
  (config.evaluate env e).map Value.text

def parse (config : Config) (source : String) : Except Error Expr :=
  (Expr.parseWithin config.maxNesting source).mapError .malformed

def render (config : Config) (env : Value) (source : String) : Except Error String :=
  config.parse source >>= config.renderTree env

end Config

end TemplateExpr
