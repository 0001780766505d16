import TemplateExpr.Expr.Basic
import TemplateExpr.Value.Coerce
import TemplateExpr.Text.Quoted

/-!
# Expressions as text

The source-like text of a tree, as messages show it.  Every operator of two or three operands has
parentheses around it, so the text reads back without rules of precedence.
-/

namespace TemplateExpr

def Literal.display : Literal → List Char
  | string s => Quoted.quote s.toList
  | other => other.toValue.text.toList

namespace Expr

mutual

/-- The text of a tree, followed by `tail`. -/
def displayOnto : Expr → List Char → List Char
  | literal value, tail => value.display ++ tail
  | identifier name, tail => name.toList ++ tail
  | member object property, tail => object.displayOnto ('.' :: (property.toList ++ tail))
  | index object key, tail => object.displayOnto ('[' :: key.displayOnto (']' :: tail))
  | call callee [], tail => callee.displayOnto ('(' :: ')' :: tail)
  | call callee (argument :: arguments), tail =>
    callee.displayOnto ('(' :: argument.displayOnto (displayArguments arguments (')' :: tail)))
  | unary op operand, tail => op.symbol.toList ++ operand.displayOnto tail
  | binary op left right, tail =>
    '(' :: left.displayOnto (' ' :: (op.symbol.toList ++ ' ' :: right.displayOnto (')' :: tail)))
  | logical op left right, tail =>
    '(' :: left.displayOnto (' ' :: (op.symbol.toList ++ ' ' :: right.displayOnto (')' :: tail)))
  | conditional test consequent alternate, tail =>
    '(' :: test.displayOnto
      (' ' :: '?' :: ' ' :: consequent.displayOnto
        (' ' :: ':' :: ' ' :: alternate.displayOnto (')' :: tail)))

/-- Arguments after the first one, each behind a comma and a space. -/
def displayArguments : List Expr → List Char → List Char
  | [], tail => tail
  | argument :: arguments, tail =>
    ',' :: ' ' :: argument.displayOnto (displayArguments arguments tail)

end

def display (e : Expr) : String := String.ofList (e.displayOnto [])

end Expr

end TemplateExpr
