import TemplateExpr.Proofs.Evaluation
import TemplateExpr.Proofs.Lookahead
import TemplateExpr.Proofs.RenderStages
import TemplateExpr.Proofs.TokenLayout

/-!
# Errors of rendering

An evaluation fails for one of three reasons: a name that is not bound, a value of the wrong type, or the limit
on depth.  A name that it misses is an identifier of the tree, and not one whose type alone is asked.  A source
that is not an expression is refused at a place between two of its characters, or at its end.  So rendering has
no errors but those of the template, which the exit status tells from mistakes of the user.
-/

namespace TemplateExpr

/-! ### Names without a value -/

theorem Scope.value?_eq_none_iff {scope : Scope} {name : String} :
    scope.value? name = none ↔ name ≠ scope.bindings.filters ∧ name ≠ scope.bindings.env := by
  unfold value?
  split
  · simp [*]
  · split <;> simp [*]

/-- An evaluation misses no name but those that the tree uses and nothing is bound to. -/
theorem evaluate_unbound {bindings : Bindings} {env : Value} {e : Expr} {name : String}
    (h : e.evaluate bindings env = .error (.unbound name)) :
    name ∈ e.usedNames ∧ name ≠ bindings.filters ∧ name ≠ bindings.env := by
  obtain same | ⟨-, deep⟩ := evaluate_follows bindings env e
  · rw [same] at h
    have missed : ErrorsIn (fun error => ∀ name, error = .unbound name →
        name ∈ e.usedNames ∧ Scope.value? ⟨bindings, env⟩ name = none) (Scope.meaning ⟨bindings, env⟩ e) := by
      refine Scope.meaning_errorsIn (fun _ _ => nofun) (fun _ => nofun) fun name used no_value => ?_
      rintro _ ⟨⟩
      exact ⟨used, no_value⟩
    obtain ⟨used, no_value⟩ := missed _ h name rfl
    exact ⟨used, Scope.value?_eq_none_iff.1 no_value⟩
  · rw [deep] at h
    cases h

theorem Error.kind_eq_reference_iff {error : Error} :
    error.kind = .reference ↔ ∃ name, error = .unbound name := by
  cases error <;> simp [kind]

/-! ### Places of syntax errors -/

/-- A place between two characters of a text that begins at a position, or at one of its ends. -/
def IsPlaceIn (position : Nat) (text : List Char) (place : Nat) : Prop :=
  ∃ before after, text = before ++ after ∧ place = position + utf8Length before

theorem IsPlaceIn.behind {position place : Nat} {taken rest : List Char}
    (h : IsPlaceIn (position + utf8Length taken) rest place) : IsPlaceIn position (taken ++ rest) place := by
  obtain ⟨before, after, rfl, rfl⟩ := h
  exact ⟨taken ++ before, after, (List.append_assoc ..).symm, by rw [utf8Length_append, Nat.add_assoc]⟩

theorem scan_place (position : Nat) (done : List Token) (text : List Char) :
    ErrorsIn (fun error => IsPlaceIn position text error.position) (scan position done text) := by
  fun_induction scan position done text with
  | case1 => exact .ok _
  | case2 position done c rest _ ih => exact ih.mono fun _ h => @IsPlaceIn.behind _ _ [c] rest h
  | case3 position done c rest _ cause offset _ =>
    exact .error ⟨_, _, (List.take_append_drop offset (c :: rest)).symm, rfl⟩
  | case4 position done c rest _ kind length _ ih =>
    refine ih.mono fun error h => ?_
    have shape : c :: rest = (c :: rest.take (length - 1)) ++ rest.drop (length - 1) := by
      rw [List.cons_append, List.take_append_drop]
    rw [shape]
    rw [Nat.add_assoc] at h
    exact h.behind

theorem Stop.mem_startsTo {stop : Stop} {ts : List Token} (h : stop.rest <:+ ts) (size : Nat) :
    (stop.toSyntaxError size).position ∈ startsTo size ts := by
  unfold Stop.toSyntaxError
  split
  · rename_i token rest shape
    have member : token ∈ ts := h.subset (shape ▸ List.mem_cons_self)
    exact List.mem_append_left _ (List.mem_map_of_mem member)
  · exact List.mem_append_right _ (List.mem_singleton_self size)

/-- A source that is no expression is refused at a boundary of its characters. -/
theorem parseWithin_place (limit : Nat) (source : String) :
    ErrorsIn (fun error => ∃ before after, source = before ++ after ∧ error.position = before.utf8ByteSize)
      (Expr.parseWithin limit source) := by
  cases scanned : tokenize source with
  | error fault =>
    rw [Expr.parseWithin, scanned]
    obtain ⟨before, after, text, place⟩ := scan_place 0 [] source.toList fault scanned
    obtain ⟨split, size⟩ := source_split text
    exact .error ⟨_, _, split, by rw [place, size, Nat.zero_add]⟩
  | ok ts =>
    rw [parseWithin_of_tokens scanned]
    cases hread : Reader.program limit ts with
    | ok e => exact .ok e
    | error stop =>
      have start := stop.mem_startsTo (Reader.program_front hread) source.utf8ByteSize
      obtain ⟨before, after, text, place, -⟩ := tokenize_insert scanned start
      exact .error ⟨before, after, text, place⟩

/-! ### Rendering -/

theorem RenderArguments.run_written {arguments : RenderArguments} {inputs : Inputs} {config : Config}
    {env : Value} {source : String} (hconfig : arguments.loadConfig inputs = .ok config)
    (henv : arguments.loadEnv inputs = .ok env) (htemplate : arguments.readTemplate inputs = .ok source)
    (written : arguments.tree = false) :
    arguments.run inputs = (config.render env source).mapError .library := by
  rw [run, hconfig, Except.mapError, ok_bind, loadConfig_checked hconfig, Except.mapError, ok_bind, henv, ok_bind,
    htemplate, ok_bind, readTree, written, if_neg Bool.false_ne_true, Config.render]
  cases config.parse source <;> rfl

/-- The errors of a rendering are those of the template, none of which is for the user to put right. -/
theorem Config.render_kind_ne_user (config : Config) (env : Value) (source : String) :
    ErrorsIn (fun error => error.kind ≠ .user) (config.render env source) := by
  unfold render parse renderTree evaluate
  refine ErrorsIn.bind ?_ fun e => ErrorsIn.map ?_ _
  · exact .mapError (fun cause => by simp [Error.kind]) _
  · refine (evaluate_kind config.bindings env e).mono fun error kind => ?_
    rcases kind with kind | kind | kind <;> simp [kind]

theorem Error.exitStatus_eq_two {error : Error} (h : error.kind ≠ .user) : error.exitStatus = 2 := by
  unfold exitStatus
  split <;> first | rfl | contradiction

/-- Evaluation fails for want of a bound name, for a wrong type or for depth; a name it misses is used in the
tree and bound to nothing.  Parsing fails at a boundary of the characters of the source.  Whatever the reason, a
template that cannot be rendered ends the command with the status of a failed rendering. -/
theorem render_errors :
    (∀ bindings env (e : Expr) error, e.evaluate bindings env = .error error →
      (error.kind = .reference ∨ error.kind = .type ∨ error.kind = .range) ∧
      (error.kind = .reference → ∃ name, error = .unbound name ∧ name ∈ e.usedNames ∧
        name ≠ bindings.filters ∧ name ≠ bindings.env)) ∧
    (∀ bindings env (e : Expr) error, e.evaluate bindings env = .error error →
      (∀ name ∈ e.usedNames, name = bindings.filters ∨ name = bindings.env) → error.kind ≠ .reference) ∧
    (∀ limit source error, Expr.parseWithin limit source = .error error →
      (Error.malformed error).kind = .badSyntax ∧ error.position ≤ source.utf8ByteSize ∧
      ∃ before after, source = before ++ after ∧ error.position = before.utf8ByteSize) ∧
    (∀ (config : Config) env source error, config.render env source = .error error →
      error.exitStatus = 2 ∧
      ∀ (arguments : RenderArguments) inputs, arguments.tree = false →
        arguments.loadConfig inputs = .ok config → arguments.loadEnv inputs = .ok env →
        arguments.readTemplate inputs = .ok source →
        (Command.render arguments).outcome inputs = ⟨2, "", some error.message⟩) := by
  have missed : ∀ bindings env (e : Expr) error, e.evaluate bindings env = .error error →
      error.kind = .reference → ∃ name, error = .unbound name ∧ name ∈ e.usedNames ∧
        name ≠ bindings.filters ∧ name ≠ bindings.env := by
    intro bindings env e error h reference
    obtain ⟨name, rfl⟩ := Error.kind_eq_reference_iff.1 reference
    exact ⟨name, rfl, evaluate_unbound h⟩
  refine ⟨fun bindings env e error h => ⟨evaluate_kind bindings env e error h, missed bindings env e error h⟩, ?_, ?_, ?_⟩
  · intro bindings env e error h bound reference
    obtain ⟨name, -, used, no_filters, no_env⟩ := missed bindings env e error h reference
    exact (bound name used).elim no_filters no_env
  · intro limit source error h
    obtain ⟨before, after, rfl, place⟩ := parseWithin_place limit source error h
    have room : before.utf8ByteSize ≤ (before ++ after).utf8ByteSize := by
      rw [String.utf8ByteSize_append]
      exact Nat.le_add_right _ _
    exact ⟨rfl, place ▸ room, before, after, rfl, place⟩
  · intro config env source error h
    have status : error.exitStatus = 2 := Error.exitStatus_eq_two (config.render_kind_ne_user env source error h)
    refine ⟨status, fun arguments inputs written hconfig henv htemplate => ?_⟩
    have failed : arguments.run inputs = .error (.library error) := by
      rw [RenderArguments.run_written hconfig henv htemplate written, h]
      rfl
    rw [Command.outcome_render_error failed, CommandError.message]
    exact congrArg (Outcome.mk · "" (some error.message)) status

theorem render_errors_accent :
    let missing : Expr := .binary .add (.unary .typeof (.identifier "x")) (.identifier "y")
    let typed : Expr := .binary .add (.unary .typeof (.identifier "x")) (.member (.identifier "e") "y")
    let unclosed : SyntaxError := ⟨.unexpected none, 3⟩
    let arguments : RenderArguments := ⟨"-", none, none, none, false⟩
    (missing.evaluate ⟨"r", "e"⟩ .null = .error (.unbound "y") ∧ "y" ∈ missing.usedNames) ∧
    (typed.evaluate ⟨"r", "e"⟩ .null = .error (.noProperties "null" "y") ∧
      (Error.noProperties "null" "y").kind ≠ .reference) ∧
    (Expr.parseWithin 2 "é(" = .error unclosed ∧
      ∃ before after, "é(" = before ++ after ∧ unclosed.position = before.utf8ByteSize) ∧
    (Command.render arguments).outcome ⟨fun path => .error path, .ok "x", fun _ _ => "refused"⟩ =
      ⟨2, "", some "ReferenceError: x is not defined"⟩ := by
  intro missing typed unclosed arguments
  obtain ⟨evaluation, bound, parsing, rendering⟩ := render_errors
  have unbound : missing.evaluate ⟨"r", "e"⟩ .null = .error (.unbound "y") := rfl
  have wrong : typed.evaluate ⟨"r", "e"⟩ .null = .error (.noProperties "null" "y") := rfl
  have used : ∀ name ∈ typed.usedNames, name = "r" ∨ name = "e" := by
    intro name h
    exact .inr (List.mem_singleton.1 h)
  have refused : Expr.parseWithin 2 "é(" = .error unclosed := by
    have apart : EndsName ['('] := by
      rintro _ ⟨⟩
      decide
    have name : readToken 'é' ['('] = .ok (.name "é", 1) :=
      @readToken_name 'é' [] ['('] (by decide +kernel) (fun _ => nofun) apart
    have paren : readToken '(' [] = .ok (.symbol .leftParen, 1) := rfl
    have tokens : tokenize "é(" = .ok [⟨.name "é", 0⟩, ⟨.symbol .leftParen, 2⟩] :=
      tokenize_eq_ok_iff.2 (@Lexed.token 0 'é' [] _ _ _ (by decide) name
        (@Lexed.token 2 '(' [] _ _ _ (by decide) paren .done))
    rw [parseWithin_of_tokens tokens]
    rfl
  have failed : Config.standard.render (.object .nil) "x" = .error (.unbound "x") := by
    rw [Config.render, Config.parse, parseWithin_of_tokens (tokenize_of_token rfl (by decide) rfl)]
    rfl
  have template : arguments.readTemplate ⟨fun path => .error path, .ok "x", fun _ _ => "refused"⟩ = .ok "x" := by
    rw [RenderArguments.readTemplate, if_pos (by decide)]
    rfl
  obtain ⟨y, same, used_y, -⟩ := (evaluation _ _ _ _ unbound).2 rfl
  cases same
  exact ⟨⟨unbound, used_y⟩, ⟨wrong, bound _ _ _ _ wrong used⟩, ⟨refused, (parsing _ _ _ refused).2.2⟩,
    (rendering _ _ _ _ failed).2 arguments _ rfl rfl rfl template⟩

end TemplateExpr
