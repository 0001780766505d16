import TemplateExpr.Value.Held
import TemplateExpr.Text.Html
import TemplateExpr.Text.Percent

/-!
# Filters

What the filters of the library do: `id` hands its argument back, `html` and `uri` escape the text of
their argument.
-/

namespace TemplateExpr

namespace Filter

/-- The result of a filter on a value in use. -/
def call (filter : Filter) (argument : Held) : Held :=
  match filter with
  | id => argument
  | html => .owned (.string (escapeHtml argument.value.text))
  | uri => .owned (.string (escapeUri argument.value.text))

def apply (filter : Filter) (v : Value) : Value := (filter.call (.owned v)).value

@[simp] theorem value_call (filter : Filter) (argument : Held) :
    (filter.call argument).value = filter.apply argument.value := by
  cases filter <;> rfl

end Filter

end TemplateExpr
