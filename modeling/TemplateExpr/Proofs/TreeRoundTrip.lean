import TemplateExpr.Command.Run
import TemplateExpr.Proofs.JsonRoundTrip
import TemplateExpr.Proofs.Lexed
import TemplateExpr.Proofs.NestingLimit

/-!
# Trees read back from JSON

Each node is written as an object with its tag and its parts in the order of their names, and such an
object is read as that node.  Only a number that is not finite has no text, so a tree with one is written
but refused when it is read.
-/

namespace TemplateExpr

/-! ### The numbers of a tree -/

/-- A double whose text in a tree denotes the same double. -/
def Double.ReadsBack (x : Double) : Prop :=
  (Json.read? none (Json.float x).write).bind Json.asDouble? = some x

namespace Expr

mutual

/-- The numbers among the literals of a tree. -/
def numbers : Expr → List Double
  | literal (.number x) => [x]
  | literal _ => []
  | identifier _ => []
  | member object _ => object.numbers
  | index object key => object.numbers ++ key.numbers
  | call callee arguments => callee.numbers ++ numbersOf arguments
  | unary _ operand => operand.numbers
  | binary _ left right => left.numbers ++ right.numbers
  | logical _ left right => left.numbers ++ right.numbers
  | conditional test consequent alternate => test.numbers ++ (consequent.numbers ++ alternate.numbers)

def numbersOf : List Expr → List Double
  | [] => []
  | e :: rest => e.numbers ++ numbersOf rest

end

/-- The tree, if each of its numbers is finite. -/
def ifFinite (e : Expr) : Option Expr := if e.numbers.all Double.isFinite then some e else none

end Expr

namespace Json

/-- A numeral that does not look like an integer denotes a double. -/
theorem number?_eq_float {negative : Bool} {whole : List Char} {fraction : Option (List Char)}
    {exponent : Option Int} (h : fraction.isSome ∨ exponent.isSome) {j : Json}
    (hj : number? negative whole fraction exponent = some j) : ∃ x, j = float x := by
  have not_whole : (fraction.isNone && exponent.isNone) = false := by
    obtain h | h := h
    · rw [Option.isNone_eq_false_iff.2 h, Bool.false_and]
    · rw [Option.isNone_eq_false_iff.2 h, Bool.and_false]
  simp only [number?, not_whole, Bool.false_and, Bool.false_eq_true, if_false] at hj
  obtain ⟨x, -, rfl⟩ := Option.map_eq_some_iff.1 hj
  exact ⟨_, rfl⟩

theorem numbersReadBack_ofDouble {x : Double} (h : x.isFinite → x.ReadsBack) :
    (ofDouble x).NumbersReadBack := by
  unfold ofDouble
  split
  · rename_i finite
    obtain ⟨negative, n, shape, text⟩ := float_text finite
    obtain ⟨j, read, value⟩ := Option.bind_eq_some_iff.1 (h finite)
    have written : (float x).write = String.ofList (Double.signText negative ++ n.text false) := by
      rw [write, writeOnto, text, Option.getD_some, List.append_nil]
    have number := numeralValue?_of_read? (written ▸ read)
    obtain ⟨-, -, number⟩ := Option.bind_eq_some_iff.1 number
    obtain ⟨y, rfl⟩ := number?_eq_float shape number
    cases Option.some.inj value
    exact read
  · trivial

end Json

namespace Expr

theorem numbersReadBack_toJson (e : Expr) (h : ∀ x ∈ e.numbers, x.isFinite → x.ReadsBack) :
    e.toJson.NumbersReadBack := by
  induction e with
  | literal value =>
    cases value with
    | number x =>
      have value := Json.numbersReadBack_ofDouble (h x List.mem_cons_self)
      exact ⟨trivial, ⟨trivial, value, trivial⟩, trivial⟩
    | _ => simp [toJson, Literal.toJson, Json.NumbersReadBack, Json.MembersReadBack]
  | identifier name => exact ⟨trivial, trivial, trivial⟩
  | member object property ih => exact ⟨trivial, ih h, trivial, trivial⟩
  | index object key ihObject ihKey =>
    obtain ⟨hObject, hKey⟩ := List.forall_mem_append.1 h
    exact ⟨trivial, ihObject hObject, ihKey hKey, trivial⟩
  | call callee arguments ihCallee ihArguments =>
    obtain ⟨hCallee, hArguments⟩ := List.forall_mem_append.1 h
    refine ⟨trivial, ihCallee hCallee, ?_, trivial⟩
    show Json.ItemsReadBack (toJsons arguments)
    clear h hCallee ihCallee
    induction arguments with
    | nil => trivial
    | cons argument rest ih =>
      obtain ⟨hFirst, hRest⟩ := List.forall_mem_append.1 hArguments
      exact ⟨ihArguments argument List.mem_cons_self hFirst,
        ih (fun e he => ihArguments e (List.mem_cons_of_mem _ he)) hRest⟩
  | unary op operand ih => exact ⟨trivial, trivial, ih h, trivial⟩
  | binary op left right ihLeft ihRight =>
    obtain ⟨hLeft, hRight⟩ := List.forall_mem_append.1 h
    exact ⟨trivial, trivial, ihLeft hLeft, ihRight hRight, trivial⟩
  | logical op left right ihLeft ihRight =>
    obtain ⟨hLeft, hRight⟩ := List.forall_mem_append.1 h
    exact ⟨trivial, trivial, ihLeft hLeft, ihRight hRight, trivial⟩
  | conditional test consequent alternate ihTest ihConsequent ihAlternate =>
    obtain ⟨hTest, hBranches⟩ := List.forall_mem_append.1 h
    obtain ⟨hConsequent, hAlternate⟩ := List.forall_mem_append.1 hBranches
    exact ⟨trivial, ihTest hTest, ihConsequent hConsequent, ihAlternate hAlternate, trivial⟩

/-! ### Nodes -/

theorem json_part (j : Json) : (part j).json = j := by
  cases j <;> rfl

/-- The parts of a node under their names, behind its tag, are found in their order. -/
theorem ofMembers?_zip (outermost : Bool) (type : NodeType) (parts : List Part)
    (h : parts.length = type.partNames.length) :
    ofMembers? outermost (("type", part (.string type.tag)) :: type.partNames.zip parts) =
      ofParts? type (parts.map some) := by
  have tag : NodeType.ofJson? outermost (part (.string type.tag)).json = some type :=
    NodeType.ofJson?_tag outermost type
  -- No node has more than three parts, so the search by name can run on each list.
  generalize part (.string type.tag) = tagPart at tag
  have found : valuesOf "type" (("type", tagPart) :: type.partNames.zip parts) = [tagPart] ∧
      type.partNames.mapM (fun name =>
        atMostOne? (valuesOf name (("type", tagPart) :: type.partNames.zip parts))) =
        some (parts.map some) := by
    cases type <;> rcases parts with _ | ⟨a, _ | ⟨b, _ | ⟨c, _ | ⟨d, rest⟩⟩⟩⟩ <;>
      first | exact ⟨rfl, rfl⟩ | cases h
  simp only [ofMembers?, found.1, tag, found.2, Option.bind_eq_bind, Option.bind_some]

/-- A node of one tree is there if the tree is. -/
theorem ifFinite_one (node : Expr → Expr) (a : Expr) :
    (do pure (node (← a.ifFinite)) : Option Expr) =
      if a.numbers.all Double.isFinite then some (node a) else none := by
  unfold ifFinite
  generalize a.numbers.all Double.isFinite = finite
  cases finite <;> rfl

theorem ifFinite_two (node : Expr → Expr → Expr) (a b : Expr) :
    (do pure (node (← a.ifFinite) (← b.ifFinite)) : Option Expr) =
      if (a.numbers ++ b.numbers).all Double.isFinite then some (node a b) else none := by
  rw [List.all_append]
  unfold ifFinite
  generalize a.numbers.all Double.isFinite = finite
  cases finite with
  | false => rfl
  | true => exact ifFinite_one (node a) b

theorem ifFinite_three (node : Expr → Expr → Expr → Expr) (a b c : Expr) :
    (do pure (node (← a.ifFinite) (← b.ifFinite) (← c.ifFinite)) : Option Expr) =
      if (a.numbers ++ (b.numbers ++ c.numbers)).all Double.isFinite then some (node a b c) else none := by
  rw [List.all_append]
  have others := ifFinite_two (node a) b c
  rw [ifFinite]
  generalize a.numbers.all Double.isFinite = finite
  cases finite with
  | false => rfl
  | true => exact others

/-- A document is the object of a node, and reads as a tree wherever it stands, if the tree has only
finite numbers. -/
def IsNodeOf (e : Expr) (j : Json) : Prop :=
  ∃ members, j = .object members ∧
    ∀ outermost, ofMembers? outermost (partsOfMembers members) = e.ifFinite

theorem IsNodeOf.tree? {e : Expr} {j : Json} (h : e.IsNodeOf j) : (part j).tree? = e.ifFinite := by
  obtain ⟨members, rfl, node⟩ := h
  exact node false

theorem IsNodeOf.ofJson? {e : Expr} {j : Json} (h : e.IsNodeOf j) : ofJson? j = e.ifFinite := by
  obtain ⟨members, rfl, node⟩ := h
  exact node true

theorem partsOfMembers_zip (names : List String) (js : List Json) :
    partsOfMembers (names.zip js) = names.zip (js.map part) := by
  induction names generalizing js with
  | nil => rfl
  | cons name names ih =>
    cases js with
    | nil => rfl
    | cons j js => exact congrArg ((name, part j) :: ·) (ih js)

theorem IsNodeOf.of_parts {e : Expr} (type : NodeType) (js : List Json)
    (h : js.length = type.partNames.length)
    (node : ofParts? type ((js.map part).map some) = e.ifFinite) :
    e.IsNodeOf (.object (("type", .string type.tag) :: type.partNames.zip js)) := by
  refine ⟨_, rfl, fun outermost => ?_⟩
  rw [partsOfMembers, partsOfMembers_zip, ofMembers?_zip outermost type _ (by rw [List.length_map, h])]
  exact node

theorem mapM_tree? {arguments : List Expr} (h : ∀ e ∈ arguments, e.IsNodeOf e.toJson) :
    (partsOfItems (toJsons arguments)).mapM Part.tree? =
      if (numbersOf arguments).all Double.isFinite then some arguments else none := by
  induction arguments with
  | nil => rfl
  | cons argument rest ih =>
    have first := (h argument List.mem_cons_self).tree?
    have others := ih fun e he => h e (List.mem_cons_of_mem _ he)
    rw [toJsons, partsOfItems, List.mapM_cons, first, others, numbersOf, List.all_append, ifFinite]
    generalize argument.numbers.all Double.isFinite = finite
    generalize (numbersOf rest).all Double.isFinite = finite'
    cases finite <;> cases finite' <;> rfl

-- Each case reads the parts of one node; that they were found under their names is `of_parts`.
theorem isNodeOf_toJson (e : Expr) : e.IsNodeOf e.toJson := by
  induction e with
  | literal value =>
    refine .of_parts .literal [value.toJson] rfl ?_
    show (Literal.ofJson? (part value.toJson).json).map literal = _
    rw [json_part]
    cases value with
    | number x =>
      show (Literal.ofJson? (.object [("kind", .string "number"), ("value", .ofDouble x)])).map literal =
        if [x].all Double.isFinite then some (literal (.number x)) else none
      rw [Json.ofDouble, List.all_cons, List.all_nil, Bool.and_true]
      generalize x.isFinite = finite
      cases finite <;> rfl
    | _ => rfl
  | identifier name => exact .of_parts .identifier [.string name] rfl rfl
  | member object property ih =>
    refine .of_parts .member [object.toJson, .string property] rfl ?_
    show (do pure (member (← (part object.toJson).tree?) property) : Option Expr) = _
    rw [ih.tree?]
    exact ifFinite_one (member · property) object
  | index object key ihObject ihKey =>
    refine .of_parts .index [object.toJson, key.toJson] rfl ?_
    show (do pure (index (← (part object.toJson).tree?) (← (part key.toJson).tree?)) : Option Expr) = _
    rw [ihObject.tree?, ihKey.tree?]
    exact ifFinite_two index object key
  | call callee arguments ihCallee ihArguments =>
    refine .of_parts .call [callee.toJson, .array (toJsons arguments)] rfl ?_
    show (do pure (call (← (part callee.toJson).tree?)
      (← (partsOfItems (toJsons arguments)).mapM Part.tree?)) : Option Expr) = _
    rw [ihCallee.tree?, mapM_tree? ihArguments, ifFinite, ifFinite, numbers, List.all_append]
    generalize callee.numbers.all Double.isFinite = finite
    generalize (numbersOf arguments).all Double.isFinite = finite'
    cases finite <;> cases finite' <;> rfl
  | unary op operand ih =>
    refine .of_parts .unary [.string op.tag, operand.toJson] rfl ?_
    show (do pure (unary (← (Json.string op.tag).asTagged? UnaryOp.tag UnaryOp.all)
      (← (part operand.toJson).tree?)) : Option Expr) = _
    rw [ih.tree?, UnaryOp.asTagged?_tag]
    exact ifFinite_one (unary op) operand
  | binary op left right ihLeft ihRight =>
    refine .of_parts .binary [.string op.tag, left.toJson, right.toJson] rfl ?_
    show (do pure (binary (← (Json.string op.tag).asTagged? BinaryOp.tag BinaryOp.all)
      (← (part left.toJson).tree?) (← (part right.toJson).tree?)) : Option Expr) = _
    rw [ihLeft.tree?, ihRight.tree?, BinaryOp.asTagged?_tag]
    exact ifFinite_two (binary op) left right
  | logical op left right ihLeft ihRight =>
    refine .of_parts .logical [.string op.tag, left.toJson, right.toJson] rfl ?_
    show (do pure (logical (← (Json.string op.tag).asTagged? LogicalOp.tag LogicalOp.all)
      (← (part left.toJson).tree?) (← (part right.toJson).tree?)) : Option Expr) = _
    rw [ihLeft.tree?, ihRight.tree?, LogicalOp.asTagged?_tag]
    exact ifFinite_two (logical op) left right
  | conditional test consequent alternate ihTest ihConsequent ihAlternate =>
    refine .of_parts .conditional [test.toJson, consequent.toJson, alternate.toJson] rfl ?_
    show (do pure (conditional (← (part test.toJson).tree?) (← (part consequent.toJson).tree?)
      (← (part alternate.toJson).tree?)) : Option Expr) = _
    rw [ihTest.tree?, ihConsequent.tree?, ihAlternate.tree?]
    exact ifFinite_three conditional test consequent alternate

theorem read?_write {e : Expr} (h : ∀ x ∈ e.numbers, x.isFinite → x.ReadsBack) :
    read? e.write = e.ifFinite := by
  rw [read?, write, Json.read?_write _ (e.numbersReadBack_toJson h)]
  exact e.isNodeOf_toJson.ofJson?

end Expr

/-! ### Stored trees -/

/-- The text of a tree reads back as the tree, whatever its depth, and is refused if one of its numbers is
not finite.  A template and the stored tree that it was parsed to therefore render alike, by themselves and
as files of a command. -/
theorem stored_tree_renders_alike (e : Expr) (h : ∀ x ∈ e.numbers, x.isFinite → x.ReadsBack) :
    ((∀ x ∈ e.numbers, x.isFinite) → Expr.read? e.write = some e) ∧
    ((∃ x ∈ e.numbers, ¬x.isFinite) → Expr.read? e.write = none) ∧
    ∀ (config : Config) (source : String), config.parse source = .ok e → (∀ x ∈ e.numbers, x.isFinite) →
      (∀ env, (Expr.read? e.write).map (config.renderTree env) = some (config.render env source)) ∧
      ∀ (arguments : RenderArguments) (inputs : Inputs) (path : String),
        arguments.tree = false → arguments.loadConfig inputs = .ok config →
        arguments.readTemplate inputs = .ok source →
        RenderArguments.readTemplate { arguments with template := path, tree := true } inputs =
          .ok e.write →
        RenderArguments.run { arguments with template := path, tree := true } inputs =
          arguments.run inputs := by
  have read := Expr.read?_write h
  have same (finite : ∀ x ∈ e.numbers, x.isFinite) : Expr.read? e.write = some e :=
    read.trans (if_pos (List.all_eq_true.2 finite))
  refine ⟨same, ?_, ?_⟩
  · rintro ⟨x, hx, infinite⟩
    refine read.trans (if_neg fun finite => infinite ?_)
    exact List.all_eq_true.1 finite x hx
  · intro config source parsed finite
    have tree := same finite
    constructor
    · intro env
      rw [tree, Config.render, parsed]
      rfl
    · intro arguments inputs path text loaded template stored
      have fromText : arguments.readTree inputs config source = .ok e := by
        rw [RenderArguments.readTree, text, parsed]
        rfl
      have fromTree : RenderArguments.readTree { arguments with template := path, tree := true } inputs config
          e.write = .ok e := by
        rw [RenderArguments.readTree, tree]
        rfl
      have loaded' : RenderArguments.loadConfig { arguments with template := path, tree := true } inputs =
          .ok config := loaded
      have env : RenderArguments.loadEnv { arguments with template := path, tree := true } inputs =
          arguments.loadEnv inputs := rfl
      rw [RenderArguments.run, RenderArguments.run, loaded, loaded', env, template, stored]
      simp only [Except.mapError, ok_bind, Config.checked]
      cases config.validate with
      | error cause => rfl
      | ok _ =>
        simp only [Except.map, ok_bind]
        cases arguments.loadEnv inputs with
        | error cause => rfl
        | ok env => simp only [ok_bind, fromText, fromTree]

theorem stored_tree_renders_alike_call :
    let two := Double.ofDecimal false 2 0
    let e : Expr := .binary .add (.call (.member (.identifier "r") "html") [.literal (.number two)])
      (.literal (.number two))
    let arguments : RenderArguments := ⟨"page", none, none, none, false⟩
    let inputs : Inputs :=
      ⟨fun path => .ok (if path = "page" then "r.html(2)+2" else e.write), .ok "", fun _ _ => "refused"⟩
    two.ReadsBack ∧ Config.standard.parse "r.html(2)+2" = .ok e ∧ Expr.read? e.write = some e ∧
      (Expr.read? e.write).map (Config.standard.renderTree .null) = some (.ok "22") ∧
      arguments.run inputs = .ok "22" ∧
      RenderArguments.run { arguments with template := "tree", tree := true } inputs = .ok "22" := by
  intro two e arguments inputs
  have htwo : two.ReadsBack := by
    unfold Double.ReadsBack
    decide +kernel
  have hnumbers : ∀ x ∈ e.numbers, x.isFinite → x.ReadsBack := by
    intro x hx _
    rw [List.eq_of_mem_replicate (show x ∈ List.replicate 2 two from hx)]
    exact htwo
  have hfinite : ∀ x ∈ e.numbers, x.isFinite := by
    intro x hx
    rw [List.eq_of_mem_replicate (show x ∈ List.replicate 2 two from hx)]
    decide +kernel
  have hparse : Config.standard.parse "r.html(2)+2" = .ok e := by
    have htokens : tokenize "r.html(2)+2" = .ok [⟨.name "r", 0⟩, ⟨.symbol .dot, 1⟩, ⟨.name "html", 2⟩,
        ⟨.symbol .leftParen, 6⟩, ⟨.number two, 7⟩, ⟨.symbol .rightParen, 8⟩, ⟨.symbol .plus, 9⟩,
        ⟨.number two, 10⟩] := by
      have last : Lexed 10 ['2'] [⟨.number two, 10⟩] := @Lexed.token 10 '2' [] [] _ _ (by decide) rfl .done
      have plus := @Lexed.token 9 '+' [] _ (.symbol .plus) _ (by decide) rfl last
      have close := @Lexed.token 8 ')' [] _ (.symbol .rightParen) _ (by decide) rfl plus
      have first := @Lexed.token 7 '2' [] _ (.number two) _ (by decide) rfl close
      have opening := @Lexed.token 6 '(' [] _ (.symbol .leftParen) _ (by decide) rfl first
      have html := @Lexed.token 2 'h' "tml".toList _ (.name "html") _ (by decide) rfl opening
      have dot := @Lexed.token 1 '.' [] _ (.symbol .dot) _ (by decide) rfl html
      exact tokenize_eq_ok_iff.2 (@Lexed.token 0 'r' [] _ (.name "r") _ (by decide) rfl dot)
    rw [Config.parse, parseWithin_of_tokens htokens]
    rfl
  have hrender (env : Value) : Config.standard.renderTree env e = .ok "22" := by
    have evaluated : e.evaluate ⟨"r", "e"⟩ env = .ok (.string (escapeHtml two.text ++ two.text)) := rfl
    have text : escapeHtml two.text ++ two.text = "22" := by decide +kernel
    rw [text] at evaluated
    show (e.evaluate ⟨"r", "e"⟩ env).map Value.text = _
    rw [evaluated]
    rfl
  have htemplate : arguments.readTemplate inputs = .ok "r.html(2)+2" := by
    rw [RenderArguments.readTemplate, if_neg (by decide)]
    rfl
  have hstored : RenderArguments.readTemplate { arguments with template := "tree", tree := true } inputs =
      .ok e.write := by
    rw [RenderArguments.readTemplate, if_neg (by decide)]
    rfl
  obtain ⟨hread, -, hsame⟩ := stored_tree_renders_alike e hnumbers
  obtain ⟨hrenders, hruns⟩ := hsame Config.standard "r.html(2)+2" hparse hfinite
  have hrun : arguments.run inputs = .ok "22" := by
    have hconfig : arguments.loadConfig inputs = .ok .standard := rfl
    have hchecked : Config.standard.checked = .ok .standard := rfl
    have henv : arguments.loadEnv inputs = .ok (.object .nil) := rfl
    have htree : arguments.readTree inputs .standard "r.html(2)+2" = .ok e := hparse
    rw [RenderArguments.run, hconfig, henv, htemplate]
    simp only [Except.mapError, ok_bind, hchecked, htree, hrender]
  have hagain := hruns arguments inputs "tree" rfl rfl htemplate hstored
  refine ⟨htwo, hparse, hread hfinite, ?_, hrun, hagain.trans hrun⟩
  rw [hrenders .null, Config.render, hparse]
  exact congrArg some (hrender .null)

end TemplateExpr
