import TemplateExpr.Config.Basic
import TemplateExpr.Expr.Display
import TemplateExpr.Proofs.Completeness
import TemplateExpr.Proofs.NestingLimit
import TemplateExpr.Proofs.QuotedText

/-!
# Displayed expressions read back

The text of a tree is a source of that tree, unless the tree holds something that no source denotes where
it stands.  Operators of two or three operands stand in parentheses, so each of their operands is displayed
as a unary form, and everything that a member, index or call may follow as an access.
-/

namespace TemplateExpr

namespace Expr

mutual

/-- The number of nodes of a tree. -/
def nodes : Expr → Nat
  | literal _ => 1
  | identifier _ => 1
  | member object _ => object.nodes + 1
  | index object key => object.nodes + key.nodes + 1
  | call callee arguments => callee.nodes + nodesOf arguments + 1
  | unary _ operand => operand.nodes + 1
  | binary _ left right => left.nodes + right.nodes + 1
  | logical _ left right => left.nodes + right.nodes + 1
  | conditional test consequent alternate => test.nodes + consequent.nodes + alternate.nodes + 1

def nodesOf : List Expr → Nat
  | [] => 0
  | e :: rest => e.nodes + nodesOf rest

end

def isUnary : Expr → Bool
  | unary _ _ => true
  | _ => false

def isNumber : Expr → Bool
  | literal (.number _) => true
  | _ => false

end Expr

/-- A literal whose text is a token of it: a number must be finite and without a minus, and NUL in a string
stand right in front of no octal digit. -/
def Literal.Readable : Literal → Prop
  | number x => x.isFinite ∧ x.isNegative = false
  | string s => NulApart s.toList
  | _ => True

/-- A tree whose text reads back: its names and literals do, no unary operator stands where a member, index
or call follows, and no number where a member does. -/
inductive Expr.Readable : Expr → Prop
  | literal {value} : value.Readable → Readable (.literal value)
  | identifier {name} : IsName name → name ∉ reservedWords → Readable (.identifier name)
  | member {object property} : Readable object → object.isUnary = false → object.isNumber = false →
    IsName property → Readable (.member object property)
  | index {object key} : Readable object → object.isUnary = false → Readable key →
    Readable (.index object key)
  | call {callee arguments} : Readable callee → callee.isUnary = false → (∀ e ∈ arguments, Readable e) →
    Readable (.call callee arguments)
  | unary {op operand} : Readable operand → Readable (.unary op operand)
  | binary {op left right} : Readable left → Readable right → Readable (.binary op left right)
  | logical {op left right} : Readable left → Readable right → Readable (.logical op left right)
  | conditional {test consequent alternate} : Readable test → Readable consequent → Readable alternate →
    Readable (.conditional test consequent alternate)

/-! ### Derivations -/

/-- The forms between unary operators and whole expressions, whose operators are infix. -/
def infixForms : List Category :=
  [.or, .and, .equality, .relational, .additive, .multiplicative, .unary]

theorem Derives.of_unary {c : Category} (hc : c ∈ infixForms) {n : Nat} {w : List Token} {e : Expr}
    (h : Derives .unary n w e) : Derives c n w e := by
  have multiplicative : Derives .multiplicative n w e := .tighter rfl h
  have additive : Derives .additive n w e := .tighter rfl multiplicative
  have relational : Derives .relational n w e := .tighter rfl additive
  have equality : Derives .equality n w e := .tighter rfl relational
  have and : Derives .and n w e := .tighter rfl equality
  simp only [infixForms, List.mem_cons, List.not_mem_nil, or_false] at hc
  rcases hc with rfl | rfl | rfl | rfl | rfl | rfl | rfl
  · exact .tighter rfl and
  all_goals assumption

theorem Derives.of_infixForm {c : Category} (hc : c ∈ infixForms) {n : Nat} {w : List Token} {e : Expr}
    (h : Derives c n w e) : Derives .or n w e := by
  have and (h : Derives .and n w e) : Derives .or n w e := .tighter rfl h
  have equality (h : Derives .equality n w e) := and (.tighter rfl h)
  have relational (h : Derives .relational n w e) := equality (.tighter rfl h)
  have additive (h : Derives .additive n w e) := relational (.tighter rfl h)
  have multiplicative (h : Derives .multiplicative n w e) := additive (.tighter rfl h)
  simp only [infixForms, List.mem_cons, List.not_mem_nil, or_false] at hc
  rcases hc with rfl | rfl | rfl | rfl | rfl | rfl | rfl
  · exact h
  · exact and h
  · exact equality h
  · exact relational h
  · exact additive h
  · exact multiplicative h
  · exact multiplicative (.tighter rfl h)

/-- The form that an infix operator belongs to, and its symbol. -/
def InfixOp.place : InfixOp → Category × Symbol
  | binary .add => (.additive, .plus)
  | binary .sub => (.additive, .minus)
  | binary .mul => (.multiplicative, .star)
  | binary .div => (.multiplicative, .slash)
  | binary .rem => (.multiplicative, .percent)
  | binary .lt => (.relational, .lt)
  | binary .ltEq => (.relational, .ltEq)
  | binary .gt => (.relational, .gt)
  | binary .gtEq => (.relational, .gtEq)
  | binary .eq => (.equality, .eq)
  | binary .notEq => (.equality, .notEq)
  | binary .strictEq => (.equality, .strictEq)
  | binary .strictNotEq => (.equality, .strictNotEq)
  | logical .and => (.and, .and)
  | logical .or => (.or, .or)
  | logical .nullish => (.or, .nullish)

/-- An infix operator between operands that are unary forms. -/
theorem infix_derives (op : InfixOp) {n m : Nat} {w u : List Token} {left right : Expr} {p : Nat}
    (hl : Derives .unary n w left) (hr : Derives .unary m u right) :
    Derives .or (max n m) (w ++ ⟨.symbol op.place.2, p⟩ :: u) (op.tree left right) := by
  have place : ∃ c', op.place.1 ∈ infixForms ∧ c' ∈ infixForms ∧ op.place.1.tighter? = some c' ∧
      op.place.1.operator? op.place.2 = some op := by
    rcases op with op | op <;> cases op <;> exact ⟨_, by decide, by decide, rfl, rfl⟩
  obtain ⟨c', form, form', tighter, operator⟩ := place
  exact .of_infixForm form (.operator tighter operator (.of_unary form hl) (.of_unary form' hr))

/-- Tokens derive a tree as a unary form, or as an access if it is no unary operator, in few enough levels
of nesting. -/
def Expr.Yields (e : Expr) (w : List Token) : Prop :=
  ∃ n, n + 2 ≤ 2 * e.nodes ∧ Derives .unary n w e ∧ (e.isUnary = false → Derives .access n w e)

theorem Derives.yields {n : Nat} {w : List Token} {e : Expr} (h : Derives .access n w e)
    (few : n + 2 ≤ 2 * e.nodes) : e.Yields w :=
  ⟨n, few, .tighter rfl h, fun _ => h⟩

theorem Derives.yields_primary {n : Nat} {w : List Token} {e : Expr} (h : Derives .primary n w e)
    (few : n + 2 ≤ 2 * e.nodes) : e.Yields w :=
  Derives.yields (.tighter rfl h) few

theorem Derives.unreserved {name : String} {p : Nat} (h : name ∉ reservedWords) :
    Derives .primary 0 [⟨.name name, p⟩] (.identifier name) := by
  have words : ∀ word ∈ "typeof" :: literalWords.map Prod.fst, word ∈ reservedWords := by decide
  have no_word : name ∉ "typeof" :: literalWords.map Prod.fst := fun word => h (words name word)
  rw [List.mem_cons, not_or] at no_word
  exact .identifier no_word.2 no_word.1

/-- A whole expression is one level deeper. -/
theorem Derives.whole {n : Nat} {w : List Token} {e : Expr} (h : Derives .unary n w e) :
    Derives .expr (n + 1) w e :=
  .plain (.of_unary (by decide) h)

/-! ### What stands behind a tree -/

/-- A text that may stand behind the text of a tree. -/
def Expr.Follows (e : Expr) (tail : List Char) : Prop :=
  ∀ c ∈ tail.head?, isNamePart c = false ∧ (c = '.' → e.isUnary = false ∧ e.isNumber = false)

/-- The characters that end the text of any tree. -/
def enders : List Char := [' ', '(', ')', '[', ']', ',']

theorem Expr.follows_ender (e : Expr) {c : Char} (hc : c ∈ enders) (rest : List Char) :
    e.Follows (c :: rest) := by
  have apart : enders.all fun c => !isNamePart c && c != '.' := by decide
  have ends := List.all_eq_true.1 apart c hc
  rw [Bool.and_eq_true, Bool.not_eq_true', bne_iff_ne] at ends
  intro d hd
  cases hd
  exact ⟨ends.1, fun point => absurd point ends.2⟩

theorem Expr.follows_nil (e : Expr) : e.Follows [] := nofun

theorem Expr.Follows.endsName {e : Expr} {tail : List Char} (h : e.Follows tail) : EndsName tail :=
  fun c hc => (h c hc).1

/-! ### Operators -/

theorem readSymbol?_blank (symbol : Symbol) (rest : List Char) :
    readSymbol? (symbol.text.toList ++ ' ' :: rest) = some symbol := by
  cases symbol <;> rfl

/-- The text of an infix operator between two blanks. -/
theorem infix_scans (op : InfixOp) {text : List Char} (h : text = op.place.2.text.toList)
    (rest : List Char) :
    Scans (' ' :: (text ++ ' ' :: rest)) rest (IsToken (.symbol op.place.2)) := by
  refine .layout rfl (.behind (c := ' ') rfl ?_)
  rw [h]
  refine scans_symbol (readSymbol?_blank op.place.2 rest) fun dot => ?_
  rcases op with op | op <;> cases op <;> cases dot

theorem scans_unary (op : UnaryOp) {rest : List Char} (h : rest.head? ≠ some '=') :
    ∃ kind, (kind, op) ∈ unaryOperators ∧ Scans (op.symbol.toList ++ rest) rest (IsToken kind) := by
  cases op with
  | not =>
    refine ⟨.symbol .bang, by decide, scans_symbol ?_ nofun⟩
    show readSymbol? ('!' :: rest) = some .bang
    cases rest with
    | nil => rfl
    | cons c cs =>
      have other : c ≠ '=' := fun same => h (congrArg some same)
      simp [readSymbol?, other]
  | negate => exact ⟨.symbol .minus, by decide, scans_symbol rfl nofun⟩
  | plus => exact ⟨.symbol .plus, by decide, scans_symbol rfl nofun⟩
  | typeof =>
    have name : IsName "typeof" := .of_all rfl (by decide) (by decide)
    have blank : EndsName (' ' :: rest) := fun c hc => by
      cases hc
      decide
    exact ⟨.name "typeof", by decide, (scans_name name blank).behind rfl⟩

/-! ### Trees -/

namespace Expr

theorem isDigit_head_textChars {x : Double} (finite : x.isFinite) (sign : x.isNegative = false) :
    ∃ c cs, x.textChars = c :: cs ∧ c.isDigit := by
  obtain ⟨n, text, -, -⟩ := Double.textChars_numeral finite sign
  obtain ⟨c, digits, hw⟩ := List.exists_cons_of_ne_nil n.whole_digits.ne_nil
  refine ⟨c, digits ++ (n.fractionText ++ n.exponentText true), ?_,
    n.whole_digits.all c (hw ▸ List.mem_cons_self)⟩
  rw [text, Numeral.text, hw, List.cons_append]

/-- No text of a tree begins with the sign that would make another operator of a `!` in front of it. -/
theorem Readable.head {e : Expr} (h : e.Readable) (tail : List Char) :
    (e.displayOnto tail).head? ≠ some '=' := by
  induction h generalizing tail with
  | @literal value readable =>
    cases value with
    | number x =>
      obtain ⟨c, cs, text, digit⟩ := isDigit_head_textChars readable.1 readable.2
      have display : (Literal.number x).display = x.textChars := String.toList_ofList
      rw [displayOnto, display, text]
      rintro ⟨⟩
      cases digit
    | bool value => cases value <;> simp [displayOnto, Literal.display, Literal.toValue, Value.text]
    | undefined => simp [displayOnto, Literal.display, Literal.toValue, Value.text]
    | null => simp [displayOnto, Literal.display, Literal.toValue, Value.text]
    | string s => simp [displayOnto, Literal.display, Quoted.quote]
  | @identifier name isName _ =>
    obtain ⟨c, cs, text, start, -⟩ := isName
    rw [displayOnto, text]
    rintro ⟨⟩
    exact absurd start (by decide)
  | member _ _ _ _ ih => exact ih _
  | index _ _ _ ih _ => exact ih _
  | @call callee arguments _ _ _ ih _ =>
    cases arguments with
    | nil => exact ih _
    | cons argument rest => exact ih _
  | @unary op operand _ _ => cases op <;> simp [displayOnto, UnaryOp.symbol]
  | binary _ _ _ _ => simp [displayOnto]
  | logical _ _ _ _ => simp [displayOnto]
  | conditional _ _ _ _ _ _ => simp [displayOnto]

/-- A scan finds the text of a tree, whatever may stand behind it, as tokens that derive the tree. -/
def Scanned (e : Expr) : Prop :=
  ∀ ⦃tail⦄, e.Follows tail → Scans (e.displayOnto tail) tail e.Yields

theorem scanned_literal {value : Literal} (h : value.Readable) : (literal value).Scanned := by
  intro tail ht
  have word {word : String} (name : IsName word) (text : value.display = word.toList)
      (literalWord : (word, value) ∈ literalWords) :
      Scans ((literal value).displayOnto tail) tail (literal value).Yields := by
    rw [displayOnto, text]
    refine (scans_name name ht.endsName).imp ?_
    rintro w ⟨p, rfl⟩
    exact Derives.yields_primary (.word literalWord) (by simp [nodes])
  cases value with
  | undefined => exact word (.of_all rfl (by decide) (by decide)) rfl (by decide)
  | null => exact word (.of_all rfl (by decide) (by decide)) rfl (by decide)
  | bool value =>
    cases value with
    | true => exact word (.of_all rfl (by decide) (by decide)) rfl (by decide)
    | false => exact word (.of_all rfl (by decide) (by decide)) rfl (by decide)
  | number x =>
    have display : (Literal.number x).display = x.textChars := String.toList_ofList
    have ends : EndsNumber tail := fun c hc =>
      ⟨(ht c hc).1, fun point => Bool.noConfusion ((ht c hc).2 point).2⟩
    rw [displayOnto, display]
    refine (scans_number h.1 h.2 ends).imp ?_
    rintro w ⟨p, rfl⟩
    exact Derives.yields_primary .number (by simp [nodes])
  | string s =>
    refine (scans_quote h tail).imp ?_
    rintro w ⟨p, rfl⟩
    exact Derives.yields_primary .string (by simp [nodes])

/-- The arguments of a call, up to its closing parenthesis. -/
theorem scans_arguments {first : Expr} {others : List Expr} (tail : List Char)
    (h : ∀ e ∈ first :: others, e.Scanned) :
    Scans (first.displayOnto (displayArguments others (')' :: tail))) (')' :: tail)
      fun w => ∃ n, n + 1 ≤ 2 * nodesOf (first :: others) ∧ DerivesArguments n w (first :: others) := by
  induction others generalizing first with
  | nil =>
    have found := h first List.mem_cons_self (first.follows_ender (c := ')') (by decide) tail)
    refine found.imp ?_
    rintro w ⟨n, few, unary, -⟩
    exact ⟨n + 1, by simp only [nodesOf]; omega, .last unary.whole⟩
  | cons second others ih =>
    have found := h first List.mem_cons_self (first.follows_ender (c := ',') (by decide)
      (' ' :: second.displayOnto (displayArguments others (')' :: tail))))
    have comma : Scans (',' :: ' ' :: second.displayOnto (displayArguments others (')' :: tail)))
        (second.displayOnto (displayArguments others (')' :: tail))) (IsToken (.symbol .comma)) :=
      .behind (c := ' ') rfl (scans_symbol rfl nofun)
    have rest := ih fun e he => h e (List.mem_cons_of_mem first he)
    refine (found.andThen (comma.andThen rest)).imp ?_
    rintro w ⟨u, _, rfl, ⟨n, few, unary, -⟩, _, v, rfl, ⟨p, rfl⟩, m, few', arguments⟩
    refine ⟨max (n + 1) m, ?_, .more unary.whole arguments⟩
    simp only [nodesOf] at few' ⊢
    omega

/-- A whole expression in parentheses. -/
theorem scans_parentheses {e : Expr} {text tail : List Char}
    (h : Scans text (')' :: tail) fun w => ∃ n, n + 2 ≤ 2 * e.nodes ∧ Derives .expr n w e) :
    Scans ('(' :: text) tail e.Yields := by
  have opening : Scans ('(' :: text) text (IsToken (.symbol .leftParen)) := scans_symbol rfl nofun
  have closing : Scans (')' :: tail) tail (IsToken (.symbol .rightParen)) := scans_symbol rfl nofun
  refine (opening.andThen (h.andThen closing)).imp ?_
  rintro w ⟨_, _, rfl, ⟨p, rfl⟩, u, _, rfl, ⟨n, few, inner⟩, ⟨q, rfl⟩⟩
  exact Derives.yields_primary (.parentheses inner) few

theorem scans_operation (op : InfixOp) {text : List Char} (h : text = op.place.2.text.toList)
    {left right : Expr} (hl : left.Scanned) (hr : right.Scanned) (tail : List Char) :
    Scans ('(' :: left.displayOnto (' ' :: (text ++ ' ' :: right.displayOnto (')' :: tail)))) tail
      (op.tree left right).Yields := by
  have nodes : (op.tree left right).nodes = left.nodes + right.nodes + 1 := by cases op <;> rfl
  have found := hr (right.follows_ender (c := ')') (by decide) tail)
  have found := (infix_scans op h _).andThen found
  have found := (hl (left.follows_ender (c := ' ') (by decide) _)).andThen found
  refine scans_parentheses (found.imp ?_)
  rintro w ⟨u, _, rfl, ⟨n, few, unary, -⟩, _, v, rfl, ⟨p, rfl⟩, m, few', unary', -⟩
  exact ⟨max n m + 1, by omega, .plain (infix_derives op unary unary')⟩

theorem scanned_conditional {test consequent alternate : Expr} (ht : test.Scanned)
    (hc : consequent.Scanned) (ha : alternate.Scanned) :
    (conditional test consequent alternate).Scanned := by
  intro tail _
  have question (rest : List Char) :
      Scans (' ' :: '?' :: ' ' :: rest) rest (IsToken (.symbol .question)) :=
    .layout rfl (.behind (c := ' ') rfl (scans_symbol rfl nofun))
  have colon (rest : List Char) : Scans (' ' :: ':' :: ' ' :: rest) rest (IsToken (.symbol .colon)) :=
    .layout rfl (.behind (c := ' ') rfl (scans_symbol rfl nofun))
  have found := ha (alternate.follows_ender (c := ')') (by decide) tail)
  have found := (hc (consequent.follows_ender (c := ' ') (by decide) _)).andThen ((colon _).andThen found)
  have found := (ht (test.follows_ender (c := ' ') (by decide) _)).andThen ((question _).andThen found)
  rw [displayOnto]
  refine scans_parentheses (found.imp ?_)
  rintro w ⟨u, _, rfl, ⟨n, few, first, -⟩, _, _, rfl, ⟨p, rfl⟩, v, _, rfl, ⟨m, few', second, -⟩, _, z, rfl,
    ⟨q, rfl⟩, k, few'', third, -⟩
  refine ⟨max n (max (m + 1) (k + 1)) + 1, by simp only [nodes]; omega, ?_⟩
  exact .conditional (.of_unary (by decide) first) second.whole third.whole

-- The induction is on what makes the tree readable.  In each case the scans of the parts are put together, and
-- the rule of the grammar for that node gives the derivation.
theorem Readable.scanned {e : Expr} (h : e.Readable) : e.Scanned := by
  induction h with
  | literal value => exact scanned_literal value
  | @identifier name isName other =>
    intro tail ht
    refine (scans_name isName ht.endsName).imp ?_
    rintro w ⟨p, rfl⟩
    exact Derives.yields_primary (.unreserved other) (by simp [nodes])
  | @member object property _ noUnary noNumber isName ih =>
    intro tail ht
    -- A point behind a number would be its own, and one behind a unary operator its operand's.
    have follows : object.Follows ('.' :: (property.toList ++ tail)) := by
      intro c hc
      cases hc
      exact ⟨by decide, fun _ => ⟨noUnary, noNumber⟩⟩
    have dot : Scans ('.' :: (property.toList ++ tail)) (property.toList ++ tail)
        (IsToken (.symbol .dot)) := by
      refine scans_symbol rfl fun _ => ?_
      obtain ⟨c, cs, text, start, -⟩ := isName
      rw [text]
      exact not_isDigit_of_isNameStart start
    refine ((ih follows).andThen (dot.andThen (scans_name isName ht.endsName))).imp ?_
    rintro w ⟨u, _, rfl, ⟨n, few, -, access⟩, _, _, rfl, ⟨p, rfl⟩, ⟨q, rfl⟩⟩
    exact Derives.yields (.member (access noUnary)) (by simp only [nodes]; omega)
  | @index object key _ noUnary _ ihObject ihKey =>
    intro tail _
    have opening : Scans ('[' :: key.displayOnto (']' :: tail)) (key.displayOnto (']' :: tail))
        (IsToken (.symbol .leftBracket)) := scans_symbol rfl nofun
    have closing : Scans (']' :: tail) tail (IsToken (.symbol .rightBracket)) := scans_symbol rfl nofun
    have found := ihObject (object.follows_ender (c := '[') (by decide) (key.displayOnto (']' :: tail)))
    have inner := ihKey (key.follows_ender (c := ']') (by decide) tail)
    refine (found.andThen (opening.andThen (inner.andThen closing))).imp ?_
    rintro w ⟨u, _, rfl, ⟨n, few, -, access⟩, _, _, rfl, ⟨p, rfl⟩, v, _, rfl, ⟨m, few', unary, -⟩,
      ⟨q, rfl⟩⟩
    exact Derives.yields (.index (access noUnary) unary.whole) (by simp only [nodes]; omega)
  | @call callee arguments _ noUnary _ ih ihArguments =>
    intro tail _
    have closing : Scans (')' :: tail) tail (IsToken (.symbol .rightParen)) := scans_symbol rfl nofun
    cases arguments with
    | nil =>
      have opening : Scans ('(' :: ')' :: tail) (')' :: tail) (IsToken (.symbol .leftParen)) :=
        scans_symbol rfl nofun
      have found := ih (callee.follows_ender (c := '(') (by decide) (')' :: tail))
      refine (found.andThen (opening.andThen closing)).imp ?_
      rintro w ⟨u, _, rfl, ⟨n, few, -, access⟩, _, _, rfl, ⟨p, rfl⟩, ⟨q, rfl⟩⟩
      exact Derives.yields (.callEmpty (access noUnary)) (by simp only [nodes]; omega)
    | cons first others =>
      have opening : Scans ('(' :: first.displayOnto (displayArguments others (')' :: tail)))
          (first.displayOnto (displayArguments others (')' :: tail))) (IsToken (.symbol .leftParen)) :=
        scans_symbol rfl nofun
      have found := ih (callee.follows_ender (c := '(') (by decide)
        (first.displayOnto (displayArguments others (')' :: tail))))
      have inner := scans_arguments tail ihArguments
      refine (found.andThen (opening.andThen (inner.andThen closing))).imp ?_
      rintro w ⟨u, _, rfl, ⟨n, few, -, access⟩, _, _, rfl, ⟨p, rfl⟩, v, _, rfl, ⟨m, few', arguments⟩,
        ⟨q, rfl⟩⟩
      exact Derives.yields (.call (access noUnary) arguments) (by simp only [nodes]; omega)
  | @unary op operand readable ih =>
    intro tail ht
    have follows : operand.Follows tail := fun c hc =>
      ⟨(ht c hc).1, fun point => Bool.noConfusion ((ht c hc).2 point).1⟩
    obtain ⟨kind, operator, found⟩ := scans_unary op (readable.head tail)
    refine (found.andThen (ih follows)).imp ?_
    rintro w ⟨_, u, rfl, ⟨p, rfl⟩, n, few, unary, -⟩
    exact ⟨n + 1, by simp only [nodes]; omega, .unary operator unary, Bool.noConfusion⟩
  | @binary op _ _ _ _ ihLeft ihRight =>
    exact fun tail _ => scans_operation (.binary op) (by cases op <;> rfl) ihLeft ihRight tail
  | @logical op _ _ _ _ ihLeft ihRight =>
    exact fun tail _ => scans_operation (.logical op) (by cases op <;> rfl) ihLeft ihRight tail
  | conditional _ _ _ ihTest ihConsequent ihAlternate =>
    exact scanned_conditional ihTest ihConsequent ihAlternate

/-! ### Whole texts -/

/-- A tree without anything that its text cannot denote is what its text reads back to, within two levels
of nesting for each of its nodes. -/
theorem display_reads_back {e : Expr} (h : e.Readable) {limit : Nat} (hlimit : 2 * e.nodes ≤ limit) :
    parseWithin limit e.display = .ok e := by
  have text : e.display.toList = e.displayOnto [] := String.toList_ofList
  obtain ⟨tokens, ⟨n, few, unary, -⟩, scanned⟩ := (text ▸ h.scanned e.follows_nil).tokenize
  rw [parseWithin_of_tokens scanned,
    Reader.program_complete (.expr unary.whole) (Nat.le_of_succ_le (Nat.le_trans few hlimit))]
  rfl

theorem display_reads_back_sum :
    let e : Expr := .binary .add (.call (.member (.identifier "e") "f") [.literal (.number (.ofDecimal false 2 0))])
      (.unary .not (.literal (.string "x")))
    e.Readable ∧ 2 * e.nodes ≤ 14 ∧ e.display = "(e.f(2) + !\"x\")" ∧ parseWithin 14 e.display = .ok e := by
  intro e
  have name : IsName "e" := ⟨'e', [], rfl, by decide, nofun⟩
  have property : IsName "f" := ⟨'f', [], rfl, by decide, nofun⟩
  have number : (Literal.number (.ofDecimal false 2 0)).Readable := ⟨by decide +kernel, by decide +kernel⟩
  have text : (Literal.string "x").Readable := by
    intro before d after shape
    have short := congrArg List.length shape
    simp at short
    omega
  have readable : e.Readable := by
    refine .binary (.call (.member (.identifier name (by decide)) rfl rfl property) rfl ?_) (.unary (.literal text))
    intro argument member
    rw [List.mem_singleton.1 member]
    exact .literal number
  exact ⟨readable, by decide, by decide +kernel, display_reads_back readable (by decide)⟩

end Expr

end TemplateExpr
