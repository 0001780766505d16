import TemplateExpr.Command.Run
import TemplateExpr.Proofs.BindingNames
import TemplateExpr.Proofs.ConfigRoundTrip
import TemplateExpr.Proofs.Evaluation
import TemplateExpr.Proofs.NestingLimit
import TemplateExpr.Proofs.Outcome
import TemplateExpr.Proofs.TokenText

/-!
# The stages of a rendering

Rendering from the command line loads and checks the configuration, loads the environment, reads the
template, reads a stored tree or parses the template's text, and evaluates.  What each stage makes of files
and arguments, and each way in which it can fail, is said here without regard to the program: a stage
succeeds or fails by what it needs, whatever becomes of the others.  The program is then shown to end with
the failure of the first stage, in that order, that has one.
-/

namespace TemplateExpr

inductive Stage where
  | configuration
  | environment
  | template
  /-- Reading a stored tree, or parsing the text of the template. -/
  | tree
  | evaluation
  deriving DecidableEq

/-- The place of a stage in a run. -/
def Stage.number : Stage → Nat
  | configuration => 0
  | environment => 1
  | template => 2
  | tree => 3
  | evaluation => 4

theorem Stage.number_injective {stage stage' : Stage} (h : stage.number = stage'.number) : stage = stage' := by
  cases stage <;> cases stage' <;> simp_all [number]

namespace RenderArguments

/-! ### What the stages yield -/

section
variable (arguments : RenderArguments) (inputs : Inputs)

/-- The configuration of a run: the standard one without a file or with a blank one, and otherwise what is
written in the file, if it is valid. -/
inductive HasConfig : Config → Prop where
  | standard (absent : arguments.config = none) : HasConfig .standard
  | blank {path text : String} (named : arguments.config = some path) (found : inputs.file path = .ok text)
      (empty : text.toList.all isBlank) : HasConfig .standard
  | written {path text : String} {config : Config} (named : arguments.config = some path)
      (found : inputs.file path = .ok text) (filled : text.toList.all isBlank = false)
      (parsed : (Yaml.read? text).bind Config.ofYaml? = some config) (valid : config.IsValid) : HasConfig config

inductive HasEnv : Value → Prop where
  | inline {text : String} {document : Json} (given : arguments.envJson = some text)
      (parsed : Json.read? (some Json.valueDepth) text = some document) : HasEnv (.ofJson document)
  | absent (inline : arguments.envJson = none) (absent : arguments.env = none) : HasEnv (.object .nil)
  | yaml {path text : String} {document : Json} (inline : arguments.envJson = none)
      (named : arguments.env = some path) (found : inputs.file path = .ok text) (format : isYamlPath path)
      (parsed : (Yaml.read? text).bind Yaml.toJson? = some document) : HasEnv (.ofJson document)
  | json {path text : String} {document : Json} (inline : arguments.envJson = none)
      (named : arguments.env = some path) (found : inputs.file path = .ok text)
      (format : isYamlPath path = false) (parsed : Json.read? (some Json.valueDepth) text = some document) :
      HasEnv (.ofJson document)

inductive HasTemplate : String → Prop where
  | input {source : String} (dash : isStandardInput arguments.template)
      (found : inputs.standardInput = .ok source) : HasTemplate source
  | file {source : String} (path : isStandardInput arguments.template = false)
      (found : inputs.file arguments.template = .ok source) : HasTemplate source

inductive HasTree (config : Config) (source : String) : Expr → Prop where
  | stored {e : Expr} (stored : arguments.tree = true) (read : Expr.read? source = some e) : HasTree config source e
  | parsed {e : Expr} (text : arguments.tree = false)
      (parsed : Expr.parseWithin config.maxNesting source = .ok e) : HasTree config source e

/-! ### How the stages fail -/

/-- A stage fails with an error: a file cannot be read, a text is refused, a configuration is not valid, or the
tree has no value. -/
inductive Fails : Stage → CommandError → Prop where
  | unreadableConfig {path reason : String} (named : arguments.config = some path)
      (lost : inputs.file path = .error reason) :
      Fails .configuration (.library (.user (.unreadableConfig path reason)))
  | badConfig {path text : String} (named : arguments.config = some path) (found : inputs.file path = .ok text)
      (filled : text.toList.all isBlank = false) (refused : (Yaml.read? text).bind Config.ofYaml? = none) :
      Fails .configuration (.library (.user (.badConfig (inputs.complaint .configuration text))))
  | invalidConfig {path text : String} {config : Config} {error : Error} (named : arguments.config = some path)
      (found : inputs.file path = .ok text) (filled : text.toList.all isBlank = false)
      (parsed : (Yaml.read? text).bind Config.ofYaml? = some config)
      (invalid : config.validate = .error error) : Fails .configuration (.library error)
  | badInlineEnv {text : String} (given : arguments.envJson = some text)
      (refused : Json.read? (some Json.valueDepth) text = none) :
      Fails .environment (.during .inlineEnv (inputs.complaint .jsonEnvironment text))
  | unreadableEnv {path reason : String} (inline : arguments.envJson = none) (named : arguments.env = some path)
      (lost : inputs.file path = .error reason) : Fails .environment (.during (.envFile path) reason)
  | badYamlEnv {path text : String} (inline : arguments.envJson = none) (named : arguments.env = some path)
      (found : inputs.file path = .ok text) (format : isYamlPath path)
      (refused : (Yaml.read? text).bind Yaml.toJson? = none) :
      Fails .environment (.during (.yamlEnv path) (inputs.complaint .yamlEnvironment text))
  | badJsonEnv {path text : String} (inline : arguments.envJson = none) (named : arguments.env = some path)
      (found : inputs.file path = .ok text) (format : isYamlPath path = false)
      (refused : Json.read? (some Json.valueDepth) text = none) :
      Fails .environment (.during (.jsonEnv path) (inputs.complaint .jsonEnvironment text))
  | unreadableInput {reason : String} (dash : isStandardInput arguments.template)
      (lost : inputs.standardInput = .error reason) : Fails .template (.during .standardInput reason)
  | unreadableTemplate {reason : String} (path : isStandardInput arguments.template = false)
      (lost : inputs.file arguments.template = .error reason) :
      Fails .template (.during (.templateFile arguments.template) reason)
  | badTree {source : String} (template : arguments.HasTemplate inputs source) (stored : arguments.tree = true)
      (refused : Expr.read? source = none) :
      Fails .tree (.library (.user (.badTree arguments.template (inputs.complaint .tree source))))
  | malformed {config : Config} {source : String} {cause : SyntaxError}
      (configured : arguments.HasConfig inputs config) (template : arguments.HasTemplate inputs source)
      (text : arguments.tree = false) (refused : Expr.parseWithin config.maxNesting source = .error cause) :
      Fails .tree (.library (.malformed cause))
  | failed {config : Config} {env : Value} {source : String} {e : Expr} {error : Error}
      (configured : arguments.HasConfig inputs config) (provided : arguments.HasEnv inputs env)
      (template : arguments.HasTemplate inputs source) (tree : arguments.HasTree config source e)
      (failure : e.evaluate config.bindings env = .error error) : Fails .evaluation (.library error)

/-- No stage at a place before `n` fails. -/
def ClearBefore (n : Nat) : Prop := ∀ stage error, stage.number < n → ¬arguments.Fails inputs stage error

/-- A stage fails, and none before it does. -/
def FailsFirst (stage : Stage) (error : CommandError) : Prop :=
  arguments.Fails inputs stage error ∧ arguments.ClearBefore inputs stage.number

end

variable {arguments : RenderArguments} {inputs : Inputs} {stage : Stage} {error : CommandError}

/-- Only a template that is no expression or has no value is a failure of the rendering itself. -/
theorem Fails.exitStatus (h : arguments.Fails inputs stage error) :
    error.exitStatus = if stage = .evaluation ∨ stage = .tree ∧ arguments.tree = false then 2 else 1 := by
  cases h with
  | invalidConfig named found filled parsed invalid =>
    have kind := Config.validate_errors _ _ invalid
    simp [CommandError.exitStatus, CommandError.library?, Error.exitStatus, kind, userFailure]
  | failed configured provided template tree failure =>
    have kind := evaluate_kind _ _ _ _ failure
    rcases kind with kind | kind | kind <;>
      simp [CommandError.exitStatus, CommandError.library?, Error.exitStatus, kind, renderFailure]
  | badTree template stored refused =>
    simp [CommandError.exitStatus, CommandError.library?, Error.exitStatus, Error.kind, stored, userFailure]
  | malformed configured template text refused =>
    simp [CommandError.exitStatus, CommandError.library?, Error.exitStatus, Error.kind, text, renderFailure]
  | _ => simp [CommandError.exitStatus, CommandError.library?, Error.exitStatus, Error.kind, userFailure]

/-! ### The program stage by stage -/

theorem loadConfig_describes :
    Describes ((arguments.loadConfig inputs).mapError .library) (arguments.HasConfig inputs)
      (arguments.Fails inputs .configuration) := by
  refine .of_cases ?_ ?_ ?_
  · intro config h
    cases h with
    | standard absent => simp [loadConfig, absent, Except.mapError]
    | blank named found empty => simp [loadConfig, named, found, Config.read, empty, Except.mapError]
    | written named found filled parsed valid =>
      simp [loadConfig, named, found, Config.read, filled, parsed, Config.checked,
        Config.validate_eq_ok_iff.2 valid, Except.mapError, Except.map]
  · intro error h
    cases h with
    | unreadableConfig named lost => simp [loadConfig, named, lost, Except.mapError]
    | badConfig named found filled refused =>
      simp [loadConfig, named, found, Config.read, filled, refused, Except.mapError]
    | invalidConfig named found filled parsed invalid =>
      simp [loadConfig, named, found, Config.read, filled, parsed, Config.checked, invalid, Except.mapError,
        Except.map]
  · cases named : arguments.config with
    | none => exact .inl ⟨_, .standard named⟩
    | some path =>
      cases found : inputs.file path with
      | error reason => exact .inr ⟨_, .unreadableConfig named found⟩
      | ok text =>
        cases filled : text.toList.all isBlank with
        | true => exact .inl ⟨_, .blank named found filled⟩
        | false =>
          cases parsed : (Yaml.read? text).bind Config.ofYaml? with
          | none => exact .inr ⟨_, .badConfig named found filled parsed⟩
          | some config =>
            cases checked : config.validate with
            | error cause => exact .inr ⟨_, .invalidConfig named found filled parsed checked⟩
            | ok _ =>
              exact .inl ⟨_, .written named found filled parsed (Config.validate_eq_ok_iff.1 checked)⟩

theorem loadEnv_describes :
    Describes (arguments.loadEnv inputs) (arguments.HasEnv inputs) (arguments.Fails inputs .environment) := by
  refine .of_cases ?_ ?_ ?_
  · intro env h
    cases h with
    | inline given parsed => simp [loadEnv, given, readJsonEnv, parsed]
    | absent inline absent => simp [loadEnv, inline, absent]
    | yaml inline named found format parsed => simp [loadEnv, inline, named, found, format, readYamlEnv, parsed]
    | json inline named found format parsed => simp [loadEnv, inline, named, found, format, readJsonEnv, parsed]
  · intro error h
    cases h with
    | badInlineEnv given refused => simp [loadEnv, given, readJsonEnv, refused]
    | unreadableEnv inline named lost => simp [loadEnv, inline, named, lost]
    | badYamlEnv inline named found format refused =>
      simp [loadEnv, inline, named, found, format, readYamlEnv, refused]
    | badJsonEnv inline named found format refused =>
      simp [loadEnv, inline, named, found, format, readJsonEnv, refused]
  · cases inline : arguments.envJson with
    | some text =>
      cases parsed : Json.read? (some Json.valueDepth) text with
      | none => exact .inr ⟨_, .badInlineEnv inline parsed⟩
      | some document => exact .inl ⟨_, .inline inline parsed⟩
    | none =>
      cases named : arguments.env with
      | none => exact .inl ⟨_, .absent inline named⟩
      | some path =>
        cases found : inputs.file path with
        | error reason => exact .inr ⟨_, .unreadableEnv inline named found⟩
        | ok text =>
          cases format : isYamlPath path with
          | true =>
            cases parsed : (Yaml.read? text).bind Yaml.toJson? with
            | none => exact .inr ⟨_, .badYamlEnv inline named found format parsed⟩
            | some document => exact .inl ⟨_, .yaml inline named found format parsed⟩
          | false =>
            cases parsed : Json.read? (some Json.valueDepth) text with
            | none => exact .inr ⟨_, .badJsonEnv inline named found format parsed⟩
            | some document => exact .inl ⟨_, .json inline named found format parsed⟩

theorem readTemplate_describes :
    Describes (arguments.readTemplate inputs) (arguments.HasTemplate inputs)
      (arguments.Fails inputs .template) := by
  refine .of_cases ?_ ?_ ?_
  · intro source h
    cases h with
    | input dash found => simp [readTemplate, dash, found, Except.mapError]
    | file path found => simp [readTemplate, path, found, Except.mapError]
  · intro error h
    cases h with
    | unreadableInput dash lost => simp [readTemplate, dash, lost, Except.mapError]
    | unreadableTemplate path lost => simp [readTemplate, path, lost, Except.mapError]
  · cases dash : isStandardInput arguments.template with
    | true =>
      cases found : inputs.standardInput with
      | error reason => exact .inr ⟨_, .unreadableInput dash found⟩
      | ok source => exact .inl ⟨_, .input dash found⟩
    | false =>
      cases found : inputs.file arguments.template with
      | error reason => exact .inr ⟨_, .unreadableTemplate dash found⟩
      | ok source => exact .inl ⟨_, .file dash found⟩

/-- There is one configuration, one environment and one template, so a tree that cannot be read is the one
that the run comes to. -/
theorem readTree_describes {config : Config} {source : String} (configured : arguments.HasConfig inputs config)
    (template : arguments.HasTemplate inputs source) :
    Describes ((arguments.readTree inputs config source).mapError .library) (arguments.HasTree config source)
      (arguments.Fails inputs .tree) := by
  refine .of_cases ?_ ?_ ?_
  · intro e h
    cases h with
    | stored stored read => simp [readTree, stored, read, Except.mapError]
    | parsed text parsed => simp [readTree, text, Config.parse, parsed, Except.mapError]
  · intro error h
    cases h with
    | badTree template' stored refused =>
      cases readTemplate_describes.ok_unique template template'
      simp [readTree, stored, refused, Except.mapError]
    | malformed configured' template' text refused =>
      cases readTemplate_describes.ok_unique template template'
      cases loadConfig_describes.ok_unique configured configured'
      simp [readTree, text, Config.parse, refused, Except.mapError]
  · cases kind : arguments.tree with
    | true =>
      cases read : Expr.read? source with
      | none => exact .inr ⟨_, .badTree template kind read⟩
      | some e => exact .inl ⟨e, .stored kind read⟩
    | false =>
      cases parsed : Expr.parseWithin config.maxNesting source with
      | error cause => exact .inr ⟨_, .malformed configured template kind parsed⟩
      | ok e => exact .inl ⟨e, .parsed kind parsed⟩

theorem renderTree_describes {config : Config} {env : Value} {source : String} {e : Expr}
    (configured : arguments.HasConfig inputs config) (provided : arguments.HasEnv inputs env)
    (template : arguments.HasTemplate inputs source) (tree : arguments.HasTree config source e) :
    Describes ((config.renderTree env e).mapError .library)
      (fun output => ∃ v, e.evaluate config.bindings env = .ok v ∧ output = v.text)
      (arguments.Fails inputs .evaluation) := by
  refine .of_cases ?_ ?_ ?_
  · rintro _ ⟨v, evaluated, rfl⟩
    simp [Config.renderTree, Config.evaluate, evaluated, Except.map, Except.mapError]
  · intro error h
    cases h with
    | failed configured' provided' template' tree' failure =>
      cases loadConfig_describes.ok_unique configured configured'
      cases loadEnv_describes.ok_unique provided provided'
      cases readTemplate_describes.ok_unique template template'
      cases (readTree_describes configured template).ok_unique tree tree'
      simp [Config.renderTree, Config.evaluate, failure, Except.map, Except.mapError]
  · cases evaluated : e.evaluate config.bindings env with
    | error error => exact .inr ⟨_, .failed configured provided template tree evaluated⟩
    | ok v => exact .inl ⟨_, v, rfl, rfl⟩

/-! ### The run -/

theorem HasConfig.checked {config : Config} (h : arguments.HasConfig inputs config) : config.checked = .ok config := by
  have valid : config.validate = .ok () := by
    cases h with
    | standard absent => exact Config.validate_standard
    | blank named found empty => exact Config.validate_standard
    | written named found filled parsed valid => exact Config.validate_eq_ok_iff.2 valid
  simp [Config.checked, valid, Except.map]

theorem loadConfig_checked {config : Config} (h : arguments.loadConfig inputs = .ok config) :
    config.checked = .ok config :=
  HasConfig.checked ((loadConfig_describes.ok_iff config).1 (mapError_eq_ok_iff.2 h))

theorem ClearBefore.zero : arguments.ClearBefore inputs 0 := fun _ _ before => absurd before (Nat.not_lt_zero _)

theorem ClearBefore.step {r : Except CommandError α} {yields : α → Prop} {a : α}
    (clear : arguments.ClearBefore inputs stage.number) (known : Describes r yields (arguments.Fails inputs stage))
    (yielded : yields a) : arguments.ClearBefore inputs (stage.number + 1) := by
  intro stage' error' before fails
  by_cases same : stage'.number = stage.number
  · cases Stage.number_injective same
    cases (known.ok yielded).symm.trans (known.error fails)
  · exact clear stage' error' (by omega) fails

/-- With no failure before it, a stage is the first to fail, or it is done and the next one is reached. -/
theorem advance {r : Except CommandError α} {yields : α → Prop}
    (known : Describes r yields (arguments.Fails inputs stage))
    (clear : arguments.ClearBefore inputs stage.number) :
    (∃ error, arguments.FailsFirst inputs stage error ∧ r = .error error) ∨
      ∃ a, yields a ∧ r = .ok a ∧ arguments.ClearBefore inputs (stage.number + 1) := by
  cases r with
  | error error => exact .inl ⟨error, ⟨(known.error_iff error).1 rfl, clear⟩, rfl⟩
  | ok a =>
    have yielded := (known.ok_iff a).1 rfl
    exact .inr ⟨a, yielded, rfl, clear.step known yielded⟩

theorem ClearBefore.evaluation {config : Config} {env : Value} {source : String} {e : Expr}
    (configured : arguments.HasConfig inputs config) (provided : arguments.HasEnv inputs env)
    (template : arguments.HasTemplate inputs source) (tree : arguments.HasTree config source e) :
    arguments.ClearBefore inputs Stage.evaluation.number := by
  have clear : arguments.ClearBefore inputs 1 := ClearBefore.zero.step loadConfig_describes configured
  have clear : arguments.ClearBefore inputs 2 := clear.step loadEnv_describes provided
  have clear : arguments.ClearBefore inputs 3 := clear.step readTemplate_describes template
  exact clear.step (readTree_describes configured template) tree

theorem Fails.unique {error' : CommandError} (h : arguments.Fails inputs stage error)
    (h' : arguments.Fails inputs stage error') : error = error' := by
  cases stage with
  | configuration => exact loadConfig_describes.error_unique h h'
  | environment => exact loadEnv_describes.error_unique h h'
  | template => exact readTemplate_describes.error_unique h h'
  | tree =>
    cases h with
    | malformed configured template text refused =>
      exact (readTree_describes configured template).error_unique (.malformed configured template text refused) h'
    | badTree template stored refused =>
      cases h' with
      | badTree template' stored' refused' =>
        cases readTemplate_describes.ok_unique template template'
        rfl
      | malformed configured template' text refused' => cases stored.symm.trans text
  | evaluation =>
    cases h with
    | failed configured provided template tree failure =>
      exact (renderTree_describes configured provided template tree).error_unique
        (.failed configured provided template tree failure) h'

theorem FailsFirst.unique {stage' : Stage} {error' : CommandError} (h : arguments.FailsFirst inputs stage error)
    (h' : arguments.FailsFirst inputs stage' error') : error = error' := by
  have stages : stage.number = stage'.number := by
    refine Nat.le_antisymm ?_ ?_
    · exact Nat.le_of_not_lt fun before => h.2 stage' error' before h'.1
    · exact Nat.le_of_not_lt fun before => h'.2 stage error before h.1
  cases Stage.number_injective stages
  exact h.1.unique h'.1

/-- The run ends with the failure of the first stage that has one, or it goes through them all. -/
theorem run_cases (arguments : RenderArguments) (inputs : Inputs) :
    (∃ stage error, arguments.FailsFirst inputs stage error ∧ arguments.run inputs = .error error) ∨
      arguments.ClearBefore inputs 5 ∧ ∃ config env source e v, arguments.HasConfig inputs config ∧
        arguments.HasEnv inputs env ∧ arguments.HasTemplate inputs source ∧ arguments.HasTree config source e ∧
        e.evaluate config.bindings env = .ok v ∧ arguments.run inputs = .ok v.text := by
  unfold run
  obtain ⟨error, first, failed⟩ | ⟨config, configured, loaded, clear⟩ := advance loadConfig_describes .zero
  · exact .inl ⟨_, error, first, by rw [failed]; rfl⟩
  rw [loaded, ok_bind, configured.checked, Except.mapError, ok_bind]
  obtain ⟨error, first, failed⟩ | ⟨env, provided, loaded, clear⟩ := advance loadEnv_describes clear
  · exact .inl ⟨_, error, first, by rw [failed]; rfl⟩
  rw [loaded, ok_bind]
  obtain ⟨error, first, failed⟩ | ⟨source, template, read, clear⟩ := advance readTemplate_describes clear
  · exact .inl ⟨_, error, first, by rw [failed]; rfl⟩
  rw [read, ok_bind]
  obtain ⟨error, first, failed⟩ | ⟨e, tree, read, clear⟩ := advance (readTree_describes configured template) clear
  · exact .inl ⟨_, error, first, by rw [failed]; rfl⟩
  rw [read, ok_bind]
  obtain ⟨error, first, failed⟩ | ⟨output, ⟨v, evaluated, rfl⟩, rendered, clear⟩ :=
    advance (renderTree_describes configured provided template tree) clear
  · exact .inl ⟨_, error, first, failed⟩
  · exact .inr ⟨clear, config, env, source, e, v, configured, provided, template, tree, evaluated, rendered⟩

theorem ClearBefore.never (h : arguments.ClearBefore inputs 5) (stage : Stage) (error : CommandError) :
    ¬arguments.Fails inputs stage error :=
  h stage error (by cases stage <;> decide)

end RenderArguments

/-! ### The outcome -/

open RenderArguments

theorem Command.outcome_of_error {inputs : Inputs} {command : Command} {error : CommandError}
    (h : command.run inputs = .error error) :
    command.outcome inputs = ⟨error.exitStatus, "", some error.message⟩ := by
  simp [outcome, h]

theorem Command.outcome_render_error {arguments : RenderArguments} {inputs : Inputs} {error : CommandError}
    (h : arguments.run inputs = .error error) :
    (render arguments).outcome inputs = ⟨error.exitStatus, "", some error.message⟩ :=
  outcome_of_error (by simp [run, h, Except.map])

theorem Command.outcome_render_ok {arguments : RenderArguments} {inputs : Inputs} {output : String}
    (h : arguments.run inputs = .ok output) : (render arguments).outcome inputs = ⟨0, output ++ "\n", none⟩ := by
  simp [outcome, run, h, Except.map, success, String.join_cons, String.join_nil]

/-- Rendering from the command line reports the failure of the first stage that has one: nothing is written
then, and the status tells parsing and evaluation from all other stages.  If no stage fails, the text of the
tree's value is written on a line of its own. -/
theorem render_outcome (arguments : RenderArguments) (inputs : Inputs) :
    ((∃ stage error, arguments.FailsFirst inputs stage error) ∨
      ∀ stage error, ¬arguments.Fails inputs stage error) ∧
    (∀ stage error, arguments.FailsFirst inputs stage error →
      (Command.render arguments).outcome inputs =
        ⟨if stage = .evaluation ∨ stage = .tree ∧ arguments.tree = false then 2 else 1, "",
          some error.message⟩) ∧
    ((∀ stage error, ¬arguments.Fails inputs stage error) →
      ∃ config env source e v, arguments.HasConfig inputs config ∧ arguments.HasEnv inputs env ∧
        arguments.HasTemplate inputs source ∧ arguments.HasTree config source e ∧
        e.evaluate config.bindings env = .ok v ∧
        (Command.render arguments).outcome inputs = ⟨0, v.text ++ "\n", none⟩) := by
  obtain ⟨stage, error, first, failed⟩ | ⟨clear, config, env, source, e, v, configured, provided, template, tree,
    evaluated, rendered⟩ := arguments.run_cases inputs
  · refine ⟨.inl ⟨stage, error, first⟩, ?_, fun never => absurd first.1 (never stage error)⟩
    intro stage' error' first'
    cases first.unique first'
    rw [← first'.1.exitStatus]
    exact Command.outcome_render_error failed
  · refine ⟨.inr clear.never, ?_, fun _ => ?_⟩
    · intro stage error first
      exact absurd first.1 (clear.never stage error)
    · exact ⟨config, env, source, e, v, configured, provided, template, tree, evaluated,
        Command.outcome_render_ok rendered⟩

theorem render_outcome_page :
    let inputs (config page : String) : Inputs :=
      { file := fun path => if path = "config" then .ok config else if path = "page" then .ok page
          else .error "not found"
        standardInput := .ok ""
        complaint := fun _ _ => "refused" }
    let render (env config : String) : RenderArguments :=
      { template := "page", env := some env, envJson := none, config := some config, tree := false }
    let bare : RenderArguments :=
      { template := "page", env := none, envJson := none, config := some "config", tree := false }
    let reserved : Config := ⟨⟨"f", "true"⟩, 1⟩
    let usable : Config := ⟨⟨"f", "page"⟩, 1⟩
    (Command.render (render "no env" "no config")).outcome (inputs "" "") =
        ⟨1, "", some "failed to read config file 'no config': not found"⟩ ∧
      (Command.render (render "no env" "config")).outcome (inputs reserved.write "") =
        ⟨1, "", some "config validation failed: bindings.env cannot be the reserved word 'true'"⟩ ∧
      (Command.render (render "no env" "config")).outcome (inputs usable.write "") =
        ⟨1, "", some "failed to read environment 'no env': not found"⟩ ∧
      (Command.render bare).outcome (inputs usable.write "x") = ⟨2, "", some "ReferenceError: x is not defined"⟩ ∧
      (Command.render bare).outcome (inputs usable.write "page") = ⟨0, "[object Object]\n", none⟩ := by
  intro inputs render bare reserved usable
  have first (arguments : RenderArguments) (files : Inputs) {stage : Stage} {error : CommandError}
      (h : arguments.FailsFirst files stage error) := (render_outcome arguments files).2.1 stage error h
  have filters : isBindingName "f" ∧ "f" ∉ reservedWords := by decide
  have refused : reserved.validate = .error (.user (.reservedWord .env "true")) := by
    have env : BindingField.env.check "true" = .error (.user (.reservedWord .env "true")) :=
      BindingField.check_eq_reserved_iff.2 (by decide)
    simp [Config.validate, Bindings.validate, reserved, BindingField.check_eq_ok_iff.2 filters, env]
  have parsed (config : Config) (h : isBindingName config.bindings.filters ∧ isBindingName config.bindings.env ∧
      config.maxNesting = 1) : (Yaml.read? config.write).bind Config.ofYaml? = some config :=
    Config.ofYaml?_write h.1 h.2.1 (by omega) (by rw [h.2.2]; decide)
  have configured (env : Option String) (page : String) :
      { bare with env := env }.HasConfig (inputs usable.write page) usable :=
    .written rfl rfl usable.write_filled (parsed usable (by decide))
      ⟨⟨filters, by decide, by decide⟩, by decide⟩
  have provided (page : String) : bare.HasEnv (inputs usable.write page) (.object .nil) := .absent rfl rfl
  have template (page : String) : bare.HasTemplate (inputs usable.write page) page := .file (by decide) rfl
  have tree (name : String) (h : isBindingName name ∧ name ∉ reservedWords) :
      bare.HasTree usable name (.identifier name) :=
    .parsed rfl ((parseWithin_name_iff (isName_of_isBindingName h.1)).2 ⟨h.2, by decide⟩)
  have unreadable : (render "no env" "no config").FailsFirst (inputs "" "") .configuration
      (.library (.user (.unreadableConfig "no config" "not found"))) := ⟨.unreadableConfig rfl rfl, .zero⟩
  have invalid : (render "no env" "config").FailsFirst (inputs reserved.write "") .configuration
      (.library (.user (.reservedWord .env "true"))) :=
    ⟨.invalidConfig rfl rfl reserved.write_filled (parsed reserved (by decide)) refused, .zero⟩
  have missing : (render "no env" "config").FailsFirst (inputs usable.write "") .environment
      (.during (.envFile "no env") "not found") :=
    ⟨.unreadableEnv rfl rfl rfl, .step .zero loadConfig_describes (configured "no env" "")⟩
  have unbound : bare.FailsFirst (inputs usable.write "x") .evaluation (.library (.unbound "x")) :=
    ⟨.failed (configured none "x") (provided "x") (template "x") (tree "x" (by decide)) rfl,
      .evaluation (configured none "x") (provided "x") (template "x") (tree "x" (by decide))⟩
  refine ⟨first _ _ unreadable, first _ _ invalid, first _ _ missing, first _ _ unbound, ?_⟩
  have known := renderTree_describes (configured none "page") (provided "page") (template "page")
    (tree "page" (by decide))
  have clear : bare.ClearBefore (inputs usable.write "page") 5 :=
    (ClearBefore.evaluation (configured none "page") (provided "page") (template "page")
      (tree "page" (by decide))).step known ⟨.object .nil, rfl, rfl⟩
  obtain ⟨config, env, source, e, v, hconfig, henv, hsource, htree, value, outcome⟩ :=
    (render_outcome bare (inputs usable.write "page")).2.2 clear.never
  cases loadConfig_describes.ok_unique (configured none "page") hconfig
  cases loadEnv_describes.ok_unique (provided "page") henv
  cases readTemplate_describes.ok_unique (template "page") hsource
  cases (readTree_describes hconfig hsource).ok_unique (tree "page" (by decide)) htree
  cases (Except.ok.inj value : Value.object .nil = v)
  exact outcome

end TemplateExpr
