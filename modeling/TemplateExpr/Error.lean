import TemplateExpr.Expr.Display
import TemplateExpr.Token.Basic
import TemplateExpr.Value.Basic

/-!
# Errors

Why the library fails: a malformed source, an expression without a value, or something that the user has to
put right.  The kind of an error begins its message, and it tells the exit status.
-/

namespace TemplateExpr

/-! ### What the user has to put right -/

/-- The names that a configuration gives. -/
inductive BindingField where
  | filters
  | env
  deriving DecidableEq

def BindingField.name : BindingField → String
  | filters => "filters"
  | env => "env"

inductive UserError where
  /-- The configuration file of the path cannot be read, for a reason in words. -/
  | unreadableConfig (path reason : String)
  /-- A text that is no configuration, and what its reader says of it. -/
  | badConfig (complaint : String)
  | notIdentifier (field : BindingField) (name : String)
  | reservedWord (field : BindingField) (name : String)
  | sameName (name : String)
  | zeroNesting
  /-- A text that is no stored tree, and what its reader says of it. -/
  | badTree (path complaint : String)
  | unknownFilter (name : String)
  deriving DecidableEq

def UserError.message : UserError → String
  | unreadableConfig path reason => "failed to read config file '" ++ path ++ "': " ++ reason
  | badConfig complaint => "failed to parse config YAML: " ++ complaint
  | notIdentifier field name =>
    "config validation failed: bindings." ++ field.name ++ " must be an identifier (found '" ++ name ++ "')"
  | reservedWord field name =>
    "config validation failed: bindings." ++ field.name ++ " cannot be the reserved word '" ++ name ++ "'"
  | sameName name =>
    "config validation failed: bindings.filters and bindings.env are both '" ++ name ++ "'"
  | zeroNesting => "config validation failed: max_nesting must be greater than 0"
  | badTree path complaint => "invalid expression tree in '" ++ path ++ "': " ++ complaint
  | unknownFilter name =>
    "unknown filter '" ++ name ++ "' (available: " ++
      ", ".intercalate (Filter.library.map Filter.name) ++ ")"

/-! ### Errors of the library -/

inductive Error where
  /-- A source that is no expression. -/
  | malformed (cause : SyntaxError)
  | unbound (name : String)
  /-- A property of undefined or null; `object` is its text. -/
  | noProperties (object : String) (key : String)
  | notCallable (callee : Expr)
  | tooDeep
  | user (cause : UserError)

inductive ErrorKind where
  | badSyntax
  | reference
  | type
  | range
  | user
  deriving DecidableEq

/-- The words with which the messages of a kind begin. -/
def ErrorKind.heading : ErrorKind → String
  | badSyntax => "SyntaxError: "
  | reference => "ReferenceError: "
  | type => "TypeError: "
  | range => "RangeError: "
  | user => ""

def SyntaxError.reason (e : SyntaxError) : String :=
  e.cause.message ++ " at position " ++ toString e.position

/-- The exit status of success. -/
def success : Nat := 0

/-- The exit status after a mistake of the user: bad arguments, unreadable files, a bad configuration. -/
def userFailure : Nat := 1

/-- The exit status after a failed rendering. -/
def renderFailure : Nat := 2

namespace Error

def kind : Error → ErrorKind
  | malformed _ => .badSyntax
  | unbound _ => .reference
  | noProperties _ _ => .type
  | notCallable _ => .type
  | tooDeep => .range
  | user _ => .user

def reason : Error → String
  | malformed cause => cause.reason
  | unbound name => name ++ " is not defined"
  | noProperties object key => "Cannot read properties of " ++ object ++ " (reading '" ++ key ++ "')"
  | notCallable callee => callee.display ++ " is not a function"
  | tooDeep => "Maximum call stack size exceeded"
  | user cause => cause.message

def message (e : Error) : String := e.kind.heading ++ e.reason

def exitStatus (e : Error) : Nat :=
  match e.kind with
  | .badSyntax => renderFailure
  | .reference => renderFailure
  | .type => renderFailure
  | .range => renderFailure
  | .user => userFailure

end Error

end TemplateExpr
